import Mathlib.Data.Prod.Lex
import Vigil.Clock

/-!
# The order of instants

Some facts about a watch need a clock whose instants are ordered.  Both clocks are: whole seconds,
and doubles as long as they are numbers.
-/

namespace Vigil

/-- A clock whose instants are ordered, as far as it can reach them. -/
class OrderedClock (τ : Type) [Clock τ] : Prop where
  /-- What an instant has reached is reached later on. -/
  reached_of_lt {due now later : τ} : Clock.reached now due = true → Clock.lt now later = true →
    Clock.reached later due = true
  /-- A timer that has not fired is still to come. -/
  lt_of_not_reached {due now : τ} : Clock.isFinite now = true → Clock.isFinite due = true →
    Clock.reached now due = false → Clock.lt now due = true
  lt_irrefl (now : τ) : Clock.lt now now = false

/-- A clock that counts exactly: a timer for the span that is left until an instant is due at that
instant, and the clock shows that instant if it stops there. -/
class ExactClock (τ : Type) [Clock τ] : Prop extends OrderedClock τ where
  add_left {now due : τ} : Clock.reached now due = false →
    Clock.add now (Clock.left now due) = due
  antisymm {now due : τ} : Clock.reached now due = true → Clock.lt due now = false → now = due

instance : OrderedClock Int where
  reached_of_lt {due now later} hreached hlater := by
    simp only [Clock.reached, Clock.le, Clock.lt, decide_eq_true_eq] at *
    omega
  lt_of_not_reached {due now} _ _ hreached := by
    simp only [Clock.reached, Clock.le, Clock.lt, decide_eq_true_eq, decide_eq_false_iff_not] at *
    omega
  lt_irrefl now := by simp [Clock.lt]

instance : ExactClock Int where
  add_left {now due} hwaits := by
    simp only [Clock.reached, Clock.le, decide_eq_false_iff_not] at hwaits
    simp only [Clock.left, Clock.lt, Clock.sub, Clock.zero, Clock.add]
    split_ifs with hpassed
    · rw [decide_eq_true_eq] at hpassed
      omega
    · omega
  antisymm {now due} hreached hlater := by
    simp only [Clock.reached, Clock.le, Clock.lt, decide_eq_true_eq, decide_eq_false_iff_not] at *
    omega

/-! ### Doubles -/

namespace Doubles

open Float.Model (UnpackedFloat)

/-- Where a double lies among all doubles: by sign and kind, then by exponent, then by mantissa;
`none` if it is not a number.  The two zeros lie at one place. -/
def rank? : UnpackedFloat → Option (ℤ ×ₗ ℤ ×ₗ ℤ)
  | .notANumber => none
  | .infinity .negative => some (toLex (-2, toLex (0, 0)))
  | .finite .negative mantissa exponent _ => some (toLex (-1, toLex (-exponent, -(mantissa : ℤ))))
  | .zero _ => some (toLex (0, toLex (0, 0)))
  | .finite .positive mantissa exponent _ => some (toLex (1, toLex (exponent, (mantissa : ℤ))))
  | .infinity .positive => some (toLex (2, toLex (0, 0)))

theorem compare_then_eq_lt {e₁ e₂ : ℤ} {m₁ m₂ : ℕ} :
    (compare e₁ e₂).then (compare m₁ m₂) = .lt ↔ e₁ < e₂ ∨ e₁ = e₂ ∧ m₁ < m₂ := by
  rw [Ordering.then_eq_lt, compare_lt_iff_lt, compare_eq_iff_eq, compare_lt_iff_lt]

theorem compare_then_eq_gt {e₁ e₂ : ℤ} {m₁ m₂ : ℕ} :
    (compare e₁ e₂).then (compare m₁ m₂) = .gt ↔ e₂ < e₁ ∨ e₁ = e₂ ∧ m₂ < m₁ := by
  rw [Ordering.then_eq_gt, compare_gt_iff_gt, compare_eq_iff_eq, compare_gt_iff_gt]

/-- Doubles compare as their ranks do. -/
theorem lt_iff (a b : UnpackedFloat) :
    a.lt b = true ↔ ∃ x ∈ rank? a, ∃ y ∈ rank? b, x < y := by
  rcases a with (_ | _) | _ | _ | ⟨_ | _, m₁, e₁, h₁⟩ <;>
    rcases b with (_ | _) | _ | _ | ⟨_ | _, m₂, e₂, h₂⟩ <;>
    dsimp only [UnpackedFloat.lt, UnpackedFloat.compare, rank?] <;>
    simp [Prod.Lex.toLex_lt_toLex, Ordering.swap_eq_lt, compare_then_eq_lt, compare_then_eq_gt]
  -- the infinities are left, which compare by their signs
  rfl

theorem le_iff (a b : UnpackedFloat) :
    a.le b = true ↔ ∃ x ∈ rank? a, ∃ y ∈ rank? b, x ≤ y := by
  rcases a with (_ | _) | _ | _ | ⟨_ | _, m₁, e₁, h₁⟩ <;>
    rcases b with (_ | _) | _ | _ | ⟨_ | _, m₂, e₂, h₂⟩ <;>
    dsimp only [UnpackedFloat.le, UnpackedFloat.compare, rank?] <;>
    simp [Prod.Lex.toLex_le_toLex, Ordering.isLE_iff_ne_gt, Ordering.isGE_iff_ne_lt,
      compare_then_eq_lt, compare_then_eq_gt]
  · rfl
  · omega
  · omega

theorem exists_rank {a : UnpackedFloat} (h : a.isFinite = true) : ∃ x, rank? a = some x := by
  rcases a with (_ | _) | _ | _ | ⟨_ | _, m, e, hm⟩ <;> first | exact ⟨_, rfl⟩ | cases h

theorem clock_lt_iff (a b : Float) :
    Clock.lt a b = true ↔
      ∃ x ∈ rank? a.toModel.unpack, ∃ y ∈ rank? b.toModel.unpack, x < y := by
  have hlt : a < b ↔ a.toModel.unpack.lt b.toModel.unpack = true := by
    change a.lt b = true ↔ _
    rw [Float.lt, decide_eq_true_iff]
    rfl
  rw [← lt_iff, ← hlt]
  exact decide_eq_true_iff

theorem clock_le_iff (a b : Float) :
    Clock.le a b = true ↔
      ∃ x ∈ rank? a.toModel.unpack, ∃ y ∈ rank? b.toModel.unpack, x ≤ y := by
  have hle : a ≤ b ↔ a.toModel.unpack.le b.toModel.unpack = true := by
    change a.le b = true ↔ _
    rw [Float.le, decide_eq_true_iff]
    rfl
  rw [← le_iff, ← hle]
  exact decide_eq_true_iff

end Doubles

open Doubles in
/-- Not every double is a number, but those that a clock reaches are. -/
instance : OrderedClock Float where
  reached_of_lt {due now later} hreached hlater := by
    rw [Clock.reached, clock_le_iff] at hreached ⊢
    rw [clock_lt_iff] at hlater
    obtain ⟨x, hx, y, hy, hxy⟩ := hreached
    obtain ⟨y', hy', z, hz, hyz⟩ := hlater
    obtain rfl : y = y' := Option.mem_unique hy hy'
    exact ⟨x, hx, z, hz, hxy.trans hyz.le⟩
  lt_of_not_reached {due now} hnow hdue hreached := by
    obtain ⟨x, hx⟩ := exists_rank (a := now.toModel.unpack) hnow
    obtain ⟨y, hy⟩ := exists_rank (a := due.toModel.unpack) hdue
    rw [clock_lt_iff]
    refine ⟨x, hx, y, hy, lt_of_not_ge fun hle => ?_⟩
    rw [Clock.reached, (clock_le_iff _ _).mpr ⟨y, hy, x, hx, hle⟩] at hreached
    cases hreached
  lt_irrefl now := by
    rw [Bool.eq_false_iff]
    intro hlt
    obtain ⟨x, hx, y, hy, hxy⟩ := (clock_lt_iff _ _).mp hlt
    obtain rfl : x = y := Option.mem_unique hx hy
    exact lt_irrefl x hxy

end Vigil
