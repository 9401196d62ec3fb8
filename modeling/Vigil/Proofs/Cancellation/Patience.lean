import Vigil.Proofs.Cancellation.History
import Vigil.Proofs.Clock.Exact

/-!
# How long a party waits

On a clock that counts exactly, every timer is set to the deadline itself, also when it is set again
because it rang early.  So at the end of each step either the cancellation has not fired and
everybody who ever began to wait still does, or it has and nobody does.  The span that is left runs
down to nothing meanwhile, and gets there when the clock reaches the deadline.
-/

namespace Vigil.Cancellation.Waiters

variable {τ : Type} [Clock τ]

/-- A party whose timer is set to the deadline must look once the cancellation has fired, and not
before. -/
theorem mustLook_deadline (w : Waiters τ) : w.mustLook w.cancellation.deadline = w.fired :=
  w.fired_eq.symm

theorem look_of_fired {w : Waiters τ} (hfired : w.fired = true) :
    w.cancellation.look w.now = .over := if_pos hfired

/-- Everybody must look, and nothing is left to wait for. -/
theorem foldl_lookOne_of_fired (parties : List (String × Option τ)) (w : Waiters τ)
    (hfired : w.fired = true) (harmed : ∀ party ∈ parties, party.2 = w.cancellation.deadline) :
    parties.foldl lookOne w = { w with finished := w.finished ++ parties.map Prod.fst } := by
  induction parties generalizing w with
  | nil => simp
  | cons party parties ih =>
      obtain ⟨hparty, hparties⟩ := List.forall_mem_cons.mp harmed
      have hlook : w.lookOne party = { w with finished := w.finished ++ [party.1] } := by
        rw [lookOne, hparty, mustLook_deadline, if_pos hfired, look_of_fired hfired]
      rw [List.foldl_cons, hlook]
      refine (ih { w with finished := w.finished ++ [party.1] } hfired hparties).trans ?_
      rw [List.append_assoc, List.singleton_append, List.map_cons]

/-- Nobody must look. -/
theorem foldl_lookOne_of_not_fired (parties : List (String × Option τ)) (w : Waiters τ)
    (hfired : w.fired = false) (harmed : ∀ party ∈ parties, party.2 = w.cancellation.deadline) :
    parties.foldl lookOne w = { w with waiting := w.waiting ++ parties } := by
  induction parties generalizing w with
  | nil => simp
  | cons party parties ih =>
      obtain ⟨hparty, hparties⟩ := List.forall_mem_cons.mp harmed
      have hlook : w.lookOne party = { w with waiting := w.waiting ++ [party] } := by
        rw [lookOne, hparty, mustLook_deadline, hfired, if_neg Bool.false_ne_true]
      rw [List.foldl_cons, hlook]
      refine (ih { w with waiting := w.waiting ++ [party] } hfired hparties).trans ?_
      rw [List.append_assoc, List.singleton_append]

/-- Those who have begun to wait by now either are finished, and not too early, or wait with their
timers set to the deadline. -/
structure Patient (deadline : Option τ) (begun : List String) (w : Waiters τ) : Prop where
  deadline_eq : w.cancellation.deadline = deadline
  now_finite : Clock.isFinite w.now = true
  armed : ∀ party ∈ w.waiting, party.2 = deadline
  begun_eq : w.finished ++ w.waiting.map Prod.fst = begun
  finished_eq_nil : w.fired = false → w.finished = []

/-- After a step nobody waits in vain. -/
structure Settled (deadline : Option τ) (begun : List String) (w : Waiters τ) : Prop
    extends Patient deadline begun w where
  waiting_eq_nil : w.fired = true → w.waiting = []

variable {deadline : Option τ} {begun : List String} {w : Waiters τ}

theorem Patient.settle (h : Patient deadline begun w) : Settled deadline begun w.settle := by
  have harmed : ∀ party ∈ w.waiting, party.2 = w.cancellation.deadline := by
    rw [h.deadline_eq]
    exact h.armed
  cases hfired : w.fired with
  | true =>
      have hsettle : w.settle =
          { w with waiting := [], finished := w.finished ++ w.waiting.map Prod.fst } :=
        foldl_lookOne_of_fired w.waiting { w with waiting := [] } hfired harmed
      rw [hsettle]
      refine ⟨⟨h.deadline_eq, h.now_finite, by simp, ?_, ?_⟩, fun _ => rfl⟩
      · rw [List.map_nil, List.append_nil, h.begun_eq]
      · intro hnot
        cases hfired.symm.trans hnot
  | false =>
      have hsettle : w.settle = w :=
        foldl_lookOne_of_not_fired w.waiting { w with waiting := [] } hfired harmed
      rw [hsettle]
      exact ⟨h, fun hyes => by cases hfired.symm.trans hyes⟩

theorem Settled.request (h : Settled deadline begun w) :
    Patient deadline begun { w with cancellation := w.cancellation.request } :=
  ⟨h.deadline_eq, h.now_finite, h.armed, h.begun_eq, fun hnot => by cases hnot⟩

theorem Patient.left_eq (h : Patient deadline begun w) :
    w.left = deadline.map (Clock.left w.now) := by
  rw [left, timeLeft, h.deadline_eq]

/-- Nobody waits at first, also if the deadline has passed by then. -/
theorem settled_fresh {now : τ} (hnow : Clock.isFinite now = true) (timeout : Option τ) :
    Settled (timeout.map (Clock.add now)) [] (fresh now timeout) :=
  ⟨⟨rfl, hnow, by simp [fresh], rfl, fun _ => rfl⟩, fun _ => rfl⟩

variable [LinearOrder τ] [ExactSpans τ]

/-- Before the cancellation fires, whoever looks sets a timer to the deadline. -/
theorem look_of_not_fired (hnow : Clock.isFinite w.now = true)
    (hfired : w.fired = false) : w.cancellation.look w.now = .until w.cancellation.deadline := by
  have hoverdue : w.overdue = false := by
    rw [fired_eq, Bool.or_eq_false_iff] at hfired
    exact hfired.2
  have hlook : w.cancellation.look w.now = .until (w.left.map (Clock.add w.now)) := by
    rw [fired] at hfired
    rw [look, hfired, if_neg Bool.false_ne_true]
    rfl
  rw [hlook, left, timeLeft]
  rw [overdue] at hoverdue
  cases hdue : w.cancellation.deadline with
  | none => rfl
  | some due =>
      rw [hdue] at hoverdue
      exact congrArg _ (congrArg _ (ExactSpans.add_left_of_not_reached hnow hoverdue))

namespace Settled

theorem begin (h : Settled deadline begun w) (name : String) :
    Patient deadline (begun ++ [name]) (w.begin name) := by
  have hbegun := h.begun_eq
  cases hfired : w.fired with
  | true =>
      have hbegin : w.begin name = { w with finished := w.finished ++ [name] } := by
        rw [Waiters.begin, look_of_fired hfired]
      rw [h.waiting_eq_nil hfired, List.map_nil, List.append_nil] at hbegun
      rw [hbegin]
      refine ⟨h.deadline_eq, h.now_finite, h.armed, ?_, ?_⟩
      · rw [h.waiting_eq_nil hfired, hbegun, List.map_nil, List.append_nil]
      · intro hnot
        cases hfired.symm.trans hnot
  | false =>
      have hbegin : w.begin name = { w with waiting := w.waiting ++ [(name, deadline)] } := by
        rw [Waiters.begin, look_of_not_fired h.now_finite hfired, h.deadline_eq]
      rw [hbegin]
      refine ⟨h.deadline_eq, h.now_finite, ?_, ?_, h.finished_eq_nil⟩
      · intro party hparty
        rcases List.mem_append.mp hparty with hold | hnew
        · exact h.armed party hold
        · rw [List.mem_singleton.mp hnew]
      · rw [List.map_append, ← List.append_assoc, hbegun]
        rfl

theorem advance (h : Settled deadline begun w) {span : τ} (hfinite : Clock.isFinite span = true)
    (hspan : Clock.zero ≤ span) : Patient deadline begun { w with now := Clock.add w.now span } := by
  refine ⟨h.deadline_eq, ExactSpans.isFinite_add h.now_finite hfinite, h.armed, h.begun_eq, ?_⟩
  intro hnot
  apply h.finished_eq_nil
  have hclock : Clock.add w.now span = w.now ∨ Clock.lt w.now (Clock.add w.now span) = true :=
    ExactSpans.eq_or_lt_of_le (ExactSpans.le_add h.now_finite hspan)
  rw [← Bool.not_eq_true] at hnot ⊢
  intro hfired
  apply hnot
  exact fired_of_later (v := w) rfl id hclock hfired

/-- A timer that rings early is set to the deadline again. -/
theorem ring (h : Settled deadline begun w) (place : Nat) : w.ring place = w := by
  rw [Waiters.ring]
  split
  next name due hplace =>
    obtain ⟨hlt, hparty⟩ := List.getElem?_eq_some_iff.mp hplace
    have hmem : w.waiting[place] ∈ w.waiting := List.getElem_mem hlt
    have hfired : w.fired = false := by
      rw [← Bool.not_eq_true]
      intro hfired
      rw [h.waiting_eq_nil hfired] at hlt
      cases hlt
    have hdue : (name, deadline) = w.waiting[place] := by
      rw [← h.armed _ hmem, hparty]
    rw [look_of_not_fired h.now_finite hfired, h.deadline_eq]
    simp only
    rw [hdue, List.set_getElem_self]
  next => rfl

end Settled

/-- If the clock advances, it does so by a span that it can count and that is not below zero. -/
def Happening.Forward (h : Happening τ) : Prop :=
  ∀ span ∈ h.advances?, Clock.isFinite span = true ∧ Clock.zero ≤ span

theorem Settled.happen (hw : Settled deadline begun w) {h : Happening τ} (hforward : h.Forward) :
    Settled deadline (begun ++ h.begins) (w.happen h) := by
  have hnobody : begun ++ [] = begun := List.append_nil begun
  match h, hforward with
  | .step .request, _ =>
      change Settled deadline (begun ++ []) _
      rw [hnobody]
      exact hw.request.settle
  | .step (.begin name), _ => exact (hw.begin name).settle
  | .step (.advance span), hforward =>
      change Settled deadline (begun ++ []) _
      rw [hnobody]
      obtain ⟨hfinite, hzero⟩ := hforward span rfl
      exact (hw.advance hfinite hzero).settle
  | .step .settle, _ =>
      change Settled deadline (begun ++ []) _
      rw [hnobody]
      exact hw.toPatient.settle
  | .ring place, _ =>
      change Settled deadline (begun ++ []) (w.ring place).settle
      rw [hnobody, hw.ring place]
      exact hw.toPatient.settle

/-- A history keeps everybody in their place: those who wait and those who are finished. -/
theorem Settled.run (hw : Settled deadline begun w) {history : List (Happening τ)}
    (hforward : ∀ h ∈ history, h.Forward) :
    Settled deadline (begun ++ history.flatMap Happening.begins) (w.run history) := by
  induction history generalizing w begun with
  | nil =>
      rw [List.flatMap_nil, List.append_nil]
      exact hw
  | cons h rest ih =>
      obtain ⟨hfirst, hrest⟩ := List.forall_mem_cons.mp hforward
      rw [run_cons, List.flatMap_cons, ← List.append_assoc]
      exact ih (hw.happen hfirst) hrest

theorem le_happen (hnow : Clock.isFinite w.now = true) {h : Happening τ} (hforward : h.Forward) :
    w.now ≤ (w.happen h).now := by
  rw [happen_now]
  cases hadvance : h.advances? with
  | none => exact le_rfl
  | some span => exact ExactSpans.le_add hnow (hforward span hadvance).2

/-- The clock never goes back. -/
theorem Settled.le_run (hw : Settled deadline begun w) {history : List (Happening τ)}
    (hforward : ∀ h ∈ history, h.Forward) : w.now ≤ (w.run history).now := by
  induction history generalizing w begun with
  | nil => exact le_rfl
  | cons h rest ih =>
      obtain ⟨hfirst, hrest⟩ := List.forall_mem_cons.mp hforward
      exact (le_happen hw.now_finite hfirst).trans (ih (hw.happen hfirst) hrest)

theorem Patient.overdue_iff {now : τ} {timeout : Option τ}
    (h : Patient (timeout.map (Clock.add now)) begun w) :
    w.overdue = true ↔ ∃ span ∈ timeout, Clock.add now span ≤ w.now := by
  rw [overdue, h.deadline_eq]
  cases timeout with
  | none => simp
  | some span => simp [ExactSpans.reached_iff]

theorem Patient.left_eq_zero_iff {now : τ} {timeout : Option τ}
    (h : Patient (timeout.map (Clock.add now)) begun w) :
    w.left = some Clock.zero ↔ ∃ span ∈ timeout, Clock.add now span ≤ w.now := by
  rw [h.left_eq, Option.map_map, Option.map_eq_some_iff]
  refine exists_congr fun span => and_congr_right fun _ => ?_
  exact (ExactSpans.left_eq_zero_iff h.now_finite).trans ExactSpans.reached_iff

/-- What a cancellation, with a timeout or without, shows after a part of a history, `v`, and after
more of it, `w`, and what has become by then of those who began to wait in that part. -/
structure Steadfast (now : τ) (timeout : Option τ) (earlier : List (Happening τ))
    (v w : Waiters τ) : Prop where
  fired_iff : v.fired = true ↔
    (∃ h ∈ earlier, h.isRequest = true) ∨ ∃ span ∈ timeout, Clock.add now span ≤ v.now
  still_fired : v.fired = true → w.fired = true
  left_eq_none_iff : v.left = none ↔ timeout = none
  zero_le_left : ∀ span ∈ v.left, Clock.zero ≤ span
  left_le_left : ∀ before ∈ v.left, ∀ after ∈ w.left, after ≤ before
  /-- Nothing is left when the clock is at the deadline or past it, and not before. -/
  left_eq_zero_iff : v.left = some Clock.zero ↔ ∃ span ∈ timeout, Clock.add now span ≤ v.now
  /-- Once the cancellation has fired, everybody is finished. -/
  finished_perm : v.fired = true →
    v.waiting = [] ∧ v.finished.Perm (earlier.flatMap Happening.begins)
  /-- Before it fires, nobody is. -/
  waiting_perm : v.fired = false →
    v.finished = [] ∧ (v.waiting.map Prod.fst).Perm (earlier.flatMap Happening.begins)

/-- At every moment of a history, those who began to wait are finished if the cancellation has fired
and wait if it has not, early rings or not; and the span that is left runs down to nothing. -/
theorem steadfast_of_forward {now : τ} (hnow : Clock.isFinite now = true) (timeout : Option τ)
    {earlier later : List (Happening τ)} (hforward : ∀ h ∈ earlier ++ later, h.Forward) :
    Steadfast now timeout earlier ((fresh now timeout).run earlier)
      ((fresh now timeout).run (earlier ++ later)) := by
  obtain ⟨hearlier, hlater⟩ := List.forall_mem_append.mp hforward
  have hv := (settled_fresh hnow timeout).run hearlier
  have hasked := (fresh now timeout).run_requested earlier
  rw [run_append]
  rw [List.nil_append] at hv
  generalize (fresh now timeout).run earlier = v at hv hasked ⊢
  have hw := hv.run hlater
  have hclock : v.now ≤ (v.run later).now := hv.le_run hlater
  constructor
  · rw [fired_eq, hasked, Bool.or_eq_true, hv.overdue_iff, ← List.any_eq_true]
    rfl
  · exact fired_of_later (v.run_deadline later) (requested_run later)
      (ExactSpans.eq_or_lt_of_le hclock)
  · rw [hv.left_eq, Option.map_eq_none_iff, Option.map_eq_none_iff]
  · intro span hspan
    rw [hv.left_eq] at hspan
    obtain ⟨due, -, rfl⟩ := Option.mem_map.mp hspan
    exact ExactSpans.zero_le_left v.now due
  · intro before hbefore after hafter
    rw [hv.left_eq] at hbefore
    rw [hw.left_eq] at hafter
    obtain ⟨due, hdue, rfl⟩ := Option.mem_map.mp hbefore
    obtain ⟨due', hdue', rfl⟩ := Option.mem_map.mp hafter
    obtain rfl : due = due' := Option.mem_unique hdue hdue'
    exact ExactSpans.left_le_left due hv.now_finite hw.now_finite hclock
  · exact hv.left_eq_zero_iff
  · intro hfired
    have hnobody := hv.waiting_eq_nil hfired
    have hbegun := hv.begun_eq
    rw [hnobody, List.map_nil, List.append_nil] at hbegun
    exact ⟨hnobody, List.Perm.of_eq hbegun⟩
  · intro hfired
    have hnobody := hv.finished_eq_nil hfired
    have hbegun := hv.begun_eq
    rw [hnobody, List.nil_append] at hbegun
    exact ⟨hnobody, List.Perm.of_eq hbegun⟩

open ExactSeconds in
/-- With half a second to go a timer rings early; its party is finished at the deadline and not
before, and whoever begins to wait after that is finished at once. -/
theorem steadfast_of_early_ring :
    Steadfast (ofRat 0) (some (ofRat (5 / 2)))
        [.step (.begin "a"), .step (.advance (ofRat 2)), .ring 0]
        ((fresh (ofRat 0) (some (ofRat (5 / 2)))).run
          [.step (.begin "a"), .step (.advance (ofRat 2)), .ring 0])
        ((fresh (ofRat 0) (some (ofRat (5 / 2)))).run
          ([.step (.begin "a"), .step (.advance (ofRat 2)), .ring 0] ++
            [.step (.advance (ofRat (1 / 2))), .step (.begin "b")])) ∧
      ((fresh (ofRat 0) (some (ofRat (5 / 2)))).run
          ([.step (.begin "a"), .step (.advance (ofRat 2)), .ring 0] ++
            [.step (.advance (ofRat (1 / 2))), .step (.begin "b")])).finished = ["a", "b"] := by
  have hforward : ∀ h ∈ [.step (.begin "a"), .step (.advance (ofRat 2)), .ring 0] ++
      [.step (.advance (ofRat (1 / 2))), .step (.begin "b")], Happening.Forward h := by
    simp [Happening.Forward, Happening.advances?, isFinite_ofRat, zero_le_ofRat]
  exact ⟨steadfast_of_forward (isFinite_ofRat 0) _ hforward, by decide +kernel⟩

end Vigil.Cancellation.Waiters
