import Mathlib.Algebra.Order.Floor.Semiring
import Mathlib.Data.Rat.Floor
import Vigil.Proofs.Clock.Exact

/-!
# Instants that are numbers

How often something can happen within a span is a question about numbers, and to ask it of a clock
one has to know what its instants are as numbers.  Whole seconds are numbers, and so are fractions
of seconds; both count exactly.
-/

namespace Vigil

/-- A clock that counts exactly, with what each of its instants and spans is in seconds. -/
class SecondsClock (τ : Type) [Clock τ] where
  seconds : τ → ℚ
  lt_iff {a b : τ} : Clock.lt a b = true ↔ seconds a < seconds b
  le_iff {a b : τ} : Clock.le a b = true ↔ seconds a ≤ seconds b
  seconds_add (now span : τ) : seconds (Clock.add now span) = seconds now + seconds span

open SecondsClock (seconds)

/-- Waits that are exact as well, with what each is in seconds. -/
class SecondsWait (ω τ : Type) [Clock τ] [SecondsClock τ] [Wait ω] [Spans ω τ] where
  length : ω → ℚ
  isPositive_iff {delay : ω} : Wait.isPositive delay = true ↔ 0 < length delay
  shorter_iff {a b : ω} : Wait.shorter a b = true ↔ length a < length b
  seconds_span {delay : ω} {span : τ} : Spans.span? delay = some span →
    seconds span = length delay

namespace SecondsClock

variable {τ : Type} [Clock τ] [SecondsClock τ]

theorem reached_iff {now due : τ} : Clock.reached now due = true ↔ seconds due ≤ seconds now :=
  le_iff

theorem not_reached_iff {now due : τ} :
    Clock.reached now due = false ↔ seconds now < seconds due := by
  rw [Bool.eq_false_iff, Ne, reached_iff, not_le]

instance : OrderedClock τ where
  reached_of_lt hreached hlater :=
    reached_iff.mpr ((reached_iff.mp hreached).trans (lt_iff.mp hlater).le)
  lt_of_not_reached _ _ hwaits := lt_iff.mpr (not_reached_iff.mp hwaits)
  lt_irrefl now := by
    rw [Bool.eq_false_iff, Ne, lt_iff]
    exact lt_irrefl _

end SecondsClock

namespace SecondsWait

variable {ω : Type} (τ : Type) [Clock τ] [SecondsClock τ] [Wait ω] [Spans ω τ] [SecondsWait ω τ]

/-- The longer of two waits takes as long as the second at least. -/
theorem length_le_longer (a b : ω) : length τ b ≤ length τ (Wait.longer a b) := by
  rw [Wait.longer]
  split_ifs with hshorter
  · exact le_rfl
  · exact not_lt.mp fun hlt => hshorter ((shorter_iff (τ := τ)).mpr hlt)

end SecondsWait

/-! ### Whole seconds -/

instance : SecondsClock Int where
  seconds n := n
  lt_iff := decide_eq_true_iff.trans Int.cast_lt.symm
  le_iff := decide_eq_true_iff.trans Int.cast_le.symm
  seconds_add := Int.cast_add

instance : SecondsWait Int Int where
  length n := n
  isPositive_iff := decide_eq_true_iff.trans Int.cast_pos.symm
  shorter_iff := decide_eq_true_iff.trans Int.cast_lt.symm
  seconds_span hspan := by rw [Option.some.inj hspan]; rfl

/-! ### Fractions of seconds -/

instance : Clock ℚ where
  zero := 0
  add := (· + ·)
  sub := (· - ·)
  lt a b := decide (a < b)
  le a b := decide (a ≤ b)
  isFinite _ := true
  stamp? := some
  tenths q := (ExactSeconds.ofRat q).tenthsText

instance : Wait ℚ where
  isNegative q := decide (q < 0)
  isPositive q := decide (0 < q)
  shorter a b := decide (a < b)
  text q := .ok (ExactSeconds.ofRat q).tenthsText

instance : Spans ℚ ℚ where
  span? := some

instance : SecondsClock ℚ where
  seconds q := q
  lt_iff := decide_eq_true_iff
  le_iff := decide_eq_true_iff
  seconds_add _ _ := rfl

instance : SecondsWait ℚ ℚ where
  length q := q
  isPositive_iff := decide_eq_true_iff
  shorter_iff := decide_eq_true_iff
  seconds_span hspan := (Option.some.inj hspan).symm

end Vigil
