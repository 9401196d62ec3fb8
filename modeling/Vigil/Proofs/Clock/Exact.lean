import Mathlib.Algebra.Order.Monoid.WithTop
import Mathlib.Algebra.Order.Ring.Int
import Mathlib.Algebra.Order.Ring.Rat
import Vigil.Number.Rounding
import Vigil.Proofs.Clock.Order

/-!
# Exact seconds

What follows from a deadline is clearest on a clock that never rounds.  A timeout need not be a
span that such a clock can count: it may be without end, or as far in the past as one likes, and
the deadline lies beyond all instants then.  Both whole seconds and fractions of them, with the two
infinite spans added, obey the laws below.
-/

namespace Vigil

/-- A clock on which nothing is rounded.  Its hands show finite instants, whereas a deadline may lie
beyond all of them. -/
class ExactSpans (τ : Type) [Clock τ] [LinearOrder τ] : Prop where
  lt_iff {a b : τ} : Clock.lt a b = true ↔ a < b
  le_iff {a b : τ} : Clock.le a b = true ↔ a ≤ b
  isFinite_add {now span : τ} : Clock.isFinite now = true → Clock.isFinite span = true →
    Clock.isFinite (Clock.add now span) = true
  le_add {now span : τ} : Clock.isFinite now = true → Clock.zero ≤ span → now ≤ Clock.add now span
  /-- The span to an instant takes the clock to that instant. -/
  add_sub {now due : τ} : Clock.isFinite now = true → Clock.add now (Clock.sub due now) = due
  sub_le_zero {now due : τ} : Clock.isFinite now = true →
    (Clock.sub due now ≤ Clock.zero ↔ due ≤ now)
  /-- The later it is, the shorter the span to an instant. -/
  sub_le_sub {now later : τ} (due : τ) : Clock.isFinite now = true →
    Clock.isFinite later = true → now ≤ later → Clock.sub due later ≤ Clock.sub due now

namespace ExactSpans

variable {τ : Type} [Clock τ] [LinearOrder τ] [ExactSpans τ]

theorem reached_iff {now due : τ} : Clock.reached now due = true ↔ due ≤ now := le_iff

/-- An instant that is no earlier is the same or a later one. -/
theorem eq_or_lt_of_le {now later : τ} (hle : now ≤ later) :
    later = now ∨ Clock.lt now later = true := by
  rcases hle.eq_or_lt with heq | hlt
  · exact .inl heq.symm
  · exact .inr (lt_iff.mpr hlt)

/-- The span that is left is nothing once the instant is reached, and the span to it before. -/
theorem left_eq_max (now due : τ) :
    Clock.left now due = max (Clock.sub due now) Clock.zero := by
  rw [Clock.left]
  split_ifs with hpassed
  · exact (max_eq_right (lt_iff.mp hpassed).le).symm
  · exact (max_eq_left (not_lt.mp fun h => hpassed (lt_iff.mpr h))).symm

theorem zero_le_left (now due : τ) : Clock.zero ≤ Clock.left now due := by
  rw [left_eq_max]
  exact le_max_right _ _

theorem left_eq_zero_iff {now due : τ} (hnow : Clock.isFinite now = true) :
    Clock.left now due = Clock.zero ↔ Clock.reached now due = true := by
  rw [left_eq_max, max_eq_right_iff, sub_le_zero hnow, reached_iff]

theorem left_le_left {now later : τ} (due : τ) (hnow : Clock.isFinite now = true)
    (hlater : Clock.isFinite later = true) (hle : now ≤ later) :
    Clock.left later due ≤ Clock.left now due := by
  rw [left_eq_max, left_eq_max]
  exact max_le_max (sub_le_sub due hnow hlater hle) le_rfl

/-- A timer for the span that is left rings at the deadline, be it finite or not. -/
theorem add_left_of_not_reached {now due : τ} (hnow : Clock.isFinite now = true)
    (hwaits : Clock.reached now due = false) : Clock.add now (Clock.left now due) = due := by
  have hahead : ¬ Clock.sub due now ≤ Clock.zero := by
    intro hpassed
    rw [sub_le_zero hnow, ← reached_iff, hwaits] at hpassed
    cases hpassed
  rw [left_eq_max, max_eq_left (not_le.mp hahead).le]
  exact add_sub hnow

end ExactSpans

instance {τ : Type} [Clock τ] [LinearOrder τ] [ExactSpans τ] : OrderedClock τ where
  reached_of_lt hreached hlater := by
    rw [ExactSpans.reached_iff] at hreached ⊢
    exact hreached.trans (ExactSpans.lt_iff.mp hlater).le
  lt_of_not_reached _ _ hwaits := by
    rw [ExactSpans.lt_iff]
    refine not_le.mp fun hle => ?_
    rw [ExactSpans.reached_iff.mpr hle] at hwaits
    cases hwaits
  lt_irrefl now := by
    rw [Bool.eq_false_iff]
    exact fun h => lt_irrefl now (ExactSpans.lt_iff.mp h)

instance : ExactSpans Int where
  lt_iff := decide_eq_true_iff
  le_iff := decide_eq_true_iff
  isFinite_add _ _ := rfl
  le_add _ hspan := by
    simp only [Clock.zero, Clock.add] at *
    omega
  add_sub _ := by
    simp only [Clock.add, Clock.sub]
    omega
  sub_le_zero _ := by
    simp only [Clock.zero, Clock.sub]
    omega
  sub_le_sub due _ _ hle := by
    simp only [Clock.sub]
    omega

/-! ### Fractions of seconds -/

/-- Seconds counted exactly, with an instant before and one after all others. -/
abbrev ExactSeconds := WithBot (WithTop ℚ)

namespace ExactSeconds

/-- The same span in the other direction. -/
def opposite : ExactSeconds → ExactSeconds
  | ⊥ => ⊤
  | ⊤ => ⊥
  | ((q : ℚ) : WithTop ℚ) => ((-q : ℚ) : WithTop ℚ)

/-- The size of a span with one place after the point, and its sign. -/
def tenthsText : ExactSeconds → String
  | ⊥ => "-inf"
  | ⊤ => "inf"
  | ((q : ℚ) : WithTop ℚ) =>
      let tenths := Number.roundDiv (q.num.natAbs * 10) q.den
      let body := toString (tenths / 10) ++ "." ++ toString (tenths % 10)
      if q < 0 then "-" ++ body else body

end ExactSeconds

instance : Clock ExactSeconds where
  zero := 0
  add := (· + ·)
  sub a b := a + b.opposite
  lt a b := decide (a < b)
  le a b := decide (a ≤ b)
  isFinite a := decide (a ≠ ⊥ ∧ a ≠ ⊤)
  stamp? a := if a ≠ ⊥ ∧ a ≠ ⊤ then some a else none
  tenths := ExactSeconds.tenthsText

namespace ExactSeconds

/-- The span or the instant that a clock can count. -/
def ofRat (q : ℚ) : ExactSeconds := ((q : WithTop ℚ) : WithBot (WithTop ℚ))

theorem exists_ofRat {a : ExactSeconds} (h : Clock.isFinite a = true) : ∃ q, a = ofRat q := by
  obtain ⟨hbot, htop⟩ := of_decide_eq_true h
  obtain ⟨b, rfl⟩ := WithBot.ne_bot_iff_exists.mp hbot
  have hb : b ≠ ⊤ := fun heq => htop (congrArg WithBot.some heq)
  obtain ⟨q, rfl⟩ := WithTop.ne_top_iff_exists.mp hb
  exact ⟨q, rfl⟩

theorem isFinite_ofRat (q : ℚ) : Clock.isFinite (ofRat q) = true :=
  decide_eq_true ⟨WithBot.coe_ne_bot, fun h => WithTop.coe_ne_top (WithBot.coe_injective h)⟩

theorem zero_le_ofRat {q : ℚ} (h : 0 ≤ q) : Clock.zero ≤ ofRat q :=
  WithBot.coe_le_coe.mpr (WithTop.coe_le_coe.mpr h)

theorem ofRat_add_opposite (q : ℚ) : ofRat q + (ofRat q).opposite = 0 := by
  change ofRat (q + -q) = 0
  rw [add_neg_cancel]
  rfl

/-- There and back again takes one to any instant, even to one beyond all others. -/
theorem ofRat_add_add_opposite (q : ℚ) (a : ExactSeconds) :
    ofRat q + (a + (ofRat q).opposite) = a := by
  rw [add_left_comm, ofRat_add_opposite, add_zero]

theorem opposite_le_opposite {p q : ℚ} (h : ofRat p ≤ ofRat q) :
    (ofRat q).opposite ≤ (ofRat p).opposite := by
  have hpq : p ≤ q := WithTop.coe_le_coe.mp (WithBot.coe_le_coe.mp h)
  exact WithBot.coe_le_coe.mpr (WithTop.coe_le_coe.mpr (neg_le_neg hpq))

end ExactSeconds

open ExactSeconds in
instance : ExactSpans ExactSeconds where
  lt_iff := decide_eq_true_iff
  le_iff := decide_eq_true_iff
  isFinite_add hnow hspan := by
    obtain ⟨p, rfl⟩ := exists_ofRat hnow
    obtain ⟨q, rfl⟩ := exists_ofRat hspan
    exact isFinite_ofRat (p + q)
  le_add _ hspan := le_add_of_nonneg_right hspan
  add_sub {now due} hnow := by
    obtain ⟨q, rfl⟩ := exists_ofRat hnow
    exact ofRat_add_add_opposite q due
  sub_le_zero {now due} hnow := by
    obtain ⟨q, rfl⟩ := exists_ofRat hnow
    change due + (ofRat q).opposite ≤ 0 ↔ due ≤ ofRat q
    constructor
    · intro hle
      calc due = ofRat q + (due + (ofRat q).opposite) := (ofRat_add_add_opposite q due).symm
        _ ≤ ofRat q + 0 := add_le_add le_rfl hle
        _ = ofRat q := add_zero _
    · intro hle
      calc due + (ofRat q).opposite ≤ ofRat q + (ofRat q).opposite := add_le_add hle le_rfl
        _ = 0 := ofRat_add_opposite q
  sub_le_sub due hnow hlater hle := by
    obtain ⟨p, rfl⟩ := exists_ofRat hnow
    obtain ⟨q, rfl⟩ := exists_ofRat hlater
    exact add_le_add le_rfl (opposite_le_opposite hle)

end Vigil
