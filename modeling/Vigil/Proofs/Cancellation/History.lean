import Mathlib.Data.List.Infix
import Vigil.Cancellation.Waiters
import Vigil.Proofs.Clock.Order

/-!
# What happens while parties wait

Besides the steps that somebody takes, a timer may ring before the instant it was set to: its party
looks at the cancellation then, and sets the timer again unless the wait is over.  A history is any
mixture of steps and early rings.  Neither the parties nor their timers have a say in when the
cancellation fires; that depends on the clock and on whether somebody asked.
-/

namespace Vigil.Cancellation.Waiters

variable {τ : Type} [Clock τ]

/-- A cancellation that is made at an instant, before anybody waits for it. -/
def fresh (now : τ) (timeout : Option τ) : Waiters τ := ⟨now, .after now timeout, [], []⟩

/-- The cancellation has fired by now. -/
def fired (w : Waiters τ) : Bool := w.cancellation.hasFired w.now

/-- The cancellation gives its deadline as the reason. -/
def exceeded (w : Waiters τ) : Bool := w.cancellation.deadlineExceeded w.now

/-- The clock has reached the deadline, if there is one. -/
def overdue (w : Waiters τ) : Bool := (w.cancellation.deadline.map (Clock.reached w.now)).getD false

def left (w : Waiters τ) : Option τ := w.cancellation.timeLeft w.now

theorem exceeded_eq (w : Waiters τ) : w.exceeded = (!w.cancellation.requested && w.overdue) := rfl

/-- Asking and reaching the deadline are the two ways to fire. -/
theorem fired_eq (w : Waiters τ) : w.fired = (w.cancellation.requested || w.overdue) := by
  change (w.cancellation.requested || w.exceeded) = _
  rw [exceeded_eq]
  cases w.cancellation.requested <;> rfl

/-- The timer of the party at a place rings, be it due or not: the party looks. -/
def ring (w : Waiters τ) (place : Nat) : Waiters τ :=
  match w.waiting[place]? with
  | some (name, some _) =>
      match w.cancellation.look w.now with
      | .over => { w with waiting := w.waiting.eraseIdx place, finished := w.finished ++ [name] }
      | .until due => { w with waiting := w.waiting.set place (name, due) }
  | _ => w

/-- What can happen while parties wait. -/
inductive Happening (τ : Type) where
  | step (s : Step τ)
  /-- A timer rings early. -/
  | ring (place : Nat)

namespace Happening

/-- Somebody asks. -/
def isRequest : Happening τ → Bool
  | .step .request => true
  | _ => false

/-- Who begins to wait. -/
def begins : Happening τ → List String
  | .step (.begin name) => [name]
  | _ => []

/-- The span for which the clock advances, if it does. -/
def advances? : Happening τ → Option τ
  | .step (.advance span) => some span
  | _ => none

end Happening

/-- One thing happens, after which everybody who must look has done so. -/
def happen (w : Waiters τ) : Happening τ → Waiters τ
  | .step s => w.step s
  | .ring place => (w.ring place).settle

/-- The state after a history. -/
def run (w : Waiters τ) (history : List (Happening τ)) : Waiters τ := history.foldl happen w

@[simp]
theorem run_nil (w : Waiters τ) : w.run [] = w := rfl

@[simp]
theorem run_cons (w : Waiters τ) (h : Happening τ) (rest : List (Happening τ)) :
    w.run (h :: rest) = (w.happen h).run rest := rfl

theorem run_append (w : Waiters τ) (earlier later : List (Happening τ)) :
    w.run (earlier ++ later) = (w.run earlier).run later := List.foldl_append

/-- The states that a list of steps goes through are those after its beginnings. -/
theorem trace_eq_map_run (w : Waiters τ) (steps : List (Step τ)) :
    w.trace steps = steps.inits.map fun taken => w.run (taken.map .step) := by
  induction steps generalizing w with
  | nil => rfl
  | cons s steps ih =>
      rw [trace, ih, List.inits_cons, List.map_cons, List.map_map]
      rfl

/-! ### The clock and the cancellation -/

theorem lookOne_keeps (w : Waiters τ) (party : String × Option τ) :
    (w.lookOne party).now = w.now ∧ (w.lookOne party).cancellation = w.cancellation := by
  rw [lookOne]
  split
  · split <;> exact ⟨rfl, rfl⟩
  · exact ⟨rfl, rfl⟩

theorem settle_keeps (w : Waiters τ) :
    w.settle.now = w.now ∧ w.settle.cancellation = w.cancellation := by
  have hlooks : ∀ (parties : List (String × Option τ)) (v : Waiters τ),
      (parties.foldl lookOne v).now = v.now ∧
        (parties.foldl lookOne v).cancellation = v.cancellation := by
    intro parties
    induction parties with
    | nil => exact fun v => ⟨rfl, rfl⟩
    | cons party parties ih =>
        intro v
        obtain ⟨hnow, hcancellation⟩ := ih (v.lookOne party)
        rw [List.foldl_cons, hnow, hcancellation]
        exact lookOne_keeps v party
  exact hlooks w.waiting { w with waiting := [] }

@[simp]
theorem settle_now (w : Waiters τ) : w.settle.now = w.now := w.settle_keeps.1

@[simp]
theorem settle_cancellation (w : Waiters τ) : w.settle.cancellation = w.cancellation :=
  w.settle_keeps.2

@[simp]
theorem begin_now (w : Waiters τ) (name : String) : (w.begin name).now = w.now := by
  rw [begin]
  split <;> rfl

@[simp]
theorem begin_cancellation (w : Waiters τ) (name : String) :
    (w.begin name).cancellation = w.cancellation := by
  rw [begin]
  split <;> rfl

@[simp]
theorem ring_now (w : Waiters τ) (place : Nat) : (w.ring place).now = w.now := by
  rw [ring]
  split
  · split <;> rfl
  · rfl

@[simp]
theorem ring_cancellation (w : Waiters τ) (place : Nat) :
    (w.ring place).cancellation = w.cancellation := by
  rw [ring]
  split
  · split <;> rfl
  · rfl

/-- Only an advance moves the clock. -/
theorem happen_now (w : Waiters τ) (h : Happening τ) :
    (w.happen h).now = (h.advances?.map (Clock.add w.now)).getD w.now := by
  rcases h with (_ | _ | _ | _) | _ <;> simp [happen, step, Happening.advances?]

/-- Only a request changes the cancellation. -/
theorem happen_cancellation (w : Waiters τ) (h : Happening τ) :
    (w.happen h).cancellation =
      if h.isRequest then w.cancellation.request else w.cancellation := by
  rcases h with (_ | _ | _ | _) | _ <;> simp [happen, step, Happening.isRequest]

@[simp]
theorem run_deadline (w : Waiters τ) (history : List (Happening τ)) :
    (w.run history).cancellation.deadline = w.cancellation.deadline := by
  induction history generalizing w with
  | nil => rfl
  | cons h rest ih =>
      rw [run_cons, ih, happen_cancellation]
      split <;> rfl

/-- Somebody asked if somebody had asked before, or does so in the history. -/
theorem run_requested (w : Waiters τ) (history : List (Happening τ)) :
    (w.run history).cancellation.requested =
      (w.cancellation.requested || history.any Happening.isRequest) := by
  induction history generalizing w with
  | nil => exact (Bool.or_false _).symm
  | cons h rest ih =>
      rw [run_cons, ih, happen_cancellation, List.any_cons, ← Bool.or_assoc]
      cases h.isRequest with
      | true => rw [if_pos rfl, Bool.or_true]; rfl
      | false => rw [if_neg Bool.false_ne_true, Bool.or_false]

/-- Asking cannot be taken back. -/
theorem requested_run {w : Waiters τ} (history : List (Happening τ))
    (hasked : w.cancellation.requested = true) :
    (w.run history).cancellation.requested = true := by
  rw [run_requested, hasked, Bool.true_or]

/-! ### Histories in which the clock never goes back -/

/-- Whatever happens leaves the clock where it is or takes it further. -/
def Onward (w : Waiters τ) : List (Happening τ) → Prop
  | [] => True
  | h :: rest =>
      ((w.happen h).now = w.now ∨ Clock.lt w.now (w.happen h).now = true) ∧ Onward (w.happen h) rest

theorem onward_append {w : Waiters τ} {earlier later : List (Happening τ)} :
    w.Onward (earlier ++ later) ↔ w.Onward earlier ∧ (w.run earlier).Onward later := by
  induction earlier generalizing w with
  | nil => simp [Onward]
  | cons h rest ih => simp only [List.cons_append, Onward, run_cons, ih, and_assoc]

variable [OrderedClock τ]

/-- A deadline that was reached is reached later on. -/
theorem overdue_of_later {v w : Waiters τ}
    (hdeadline : w.cancellation.deadline = v.cancellation.deadline)
    (hclock : w.now = v.now ∨ Clock.lt v.now w.now = true) (hoverdue : v.overdue = true) :
    w.overdue = true := by
  rw [overdue] at hoverdue ⊢
  rw [hdeadline]
  cases hdue : v.cancellation.deadline with
  | none =>
      rw [hdue] at hoverdue
      cases hoverdue
  | some due =>
      rw [hdue] at hoverdue
      rcases hclock with hstays | hlater
      · rw [hstays]
        exact hoverdue
      · exact OrderedClock.reached_of_lt hoverdue hlater

/-- A cancellation that had fired still has. -/
theorem fired_of_later {v w : Waiters τ}
    (hdeadline : w.cancellation.deadline = v.cancellation.deadline)
    (hasked : v.cancellation.requested = true → w.cancellation.requested = true)
    (hclock : w.now = v.now ∨ Clock.lt v.now w.now = true) (hfired : v.fired = true) :
    w.fired = true := by
  rw [fired_eq, Bool.or_eq_true] at hfired ⊢
  exact hfired.imp hasked (overdue_of_later hdeadline hclock)

theorem overdue_run {w : Waiters τ} {history : List (Happening τ)} (honward : w.Onward history)
    (hoverdue : w.overdue = true) : (w.run history).overdue = true := by
  induction history generalizing w with
  | nil => exact hoverdue
  | cons h rest ih =>
      obtain ⟨hclock, hrest⟩ := honward
      exact ih hrest (overdue_of_later (w.run_deadline [h]) hclock hoverdue)

theorem fired_run {w : Waiters τ} {history : List (Happening τ)} (honward : w.Onward history)
    (hfired : w.fired = true) : (w.run history).fired = true := by
  induction history generalizing w with
  | nil => exact hfired
  | cons h rest ih =>
      obtain ⟨hclock, hrest⟩ := honward
      exact ih hrest (fired_of_later (w.run_deadline [h]) (requested_run [h]) hclock hfired)

end Vigil.Cancellation.Waiters
