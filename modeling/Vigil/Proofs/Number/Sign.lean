import Vigil.Number.Amount
import Vigil.Proofs.Number.Word

/-!
# The signs of amounts

Amounts are compared by their exact values, and doubles by their own order.  About zero the two
agree.  A double that is an undefined number is neither below nor above zero, nor equal to it, so
not being below zero is less than being at least zero.
-/

namespace Vigil.Number

open Float.Model (UnpackedFloat)

/-! ### Doubles about zero -/

/-- Where a double lies from zero: below, at or above; `none` for an undefined number. -/
def side? : UnpackedFloat → Option Ordering
  | .notANumber => none
  | .zero _ => some .eq
  | .infinity .negative => some .lt
  | .finite .negative _ _ _ => some .lt
  | .infinity .positive => some .gt
  | .finite .positive _ _ _ => some .gt

theorem compare_zero (u : UnpackedFloat) : u.compare (.zero .positive) = side? u := by
  rcases u with (_ | _) | _ | _ | ⟨_ | _, m, e, hm⟩ <;> rfl

theorem zero_compare (u : UnpackedFloat) :
    UnpackedFloat.compare (.zero .positive) u = (side? u).map Ordering.swap := by
  rcases u with (_ | _) | _ | _ | ⟨_ | _, m, e, hm⟩ <;> rfl

/-- Where a double lies from zero. -/
def sideOf? (x : Float) : Option Ordering := side? x.toModel.unpack

theorem lt_zero_iff {x : Float} : x < 0 ↔ sideOf? x = some .lt := by
  have hlt : x < 0 ↔ (x.toModel.unpack.compare (.zero .positive) == some .lt) = true := by
    change x.lt 0 = true ↔ _
    rw [Float.lt, decide_eq_true_iff]
    rfl
  rw [hlt, compare_zero, beq_iff_eq, sideOf?]

theorem zero_lt_iff {x : Float} : 0 < x ↔ sideOf? x = some .gt := by
  have hlt : 0 < x ↔ (UnpackedFloat.compare (.zero .positive) x.toModel.unpack == some .lt) = true := by
    change (0 : Float).lt x = true ↔ _
    rw [Float.lt, decide_eq_true_iff]
    rfl
  rw [hlt, zero_compare, beq_iff_eq, sideOf?]
  rcases side? x.toModel.unpack with _ | _ | _ | _ <;> simp

theorem zero_le_iff {x : Float} : 0 ≤ x ↔ sideOf? x = some .eq ∨ sideOf? x = some .gt := by
  have hle : 0 ≤ x ↔ (UnpackedFloat.compare (.zero .positive) x.toModel.unpack).any (·.isLE) = true := by
    change (0 : Float).le x = true ↔ _
    rw [Float.le, decide_eq_true_iff]
    rfl
  rw [hle, zero_compare, sideOf?]
  rcases side? x.toModel.unpack with _ | _ | _ | _ <;> simp

theorem beq_zero_iff {x : Float} : (x == 0) = true ↔ sideOf? x = some .eq := by
  have heq : (x == 0) = (x.toModel.unpack.compare (.zero .positive) == some .eq) := by
    change x.beq 0 = _
    rw [Float.beq]
    rfl
  rw [heq, compare_zero, beq_iff_eq, sideOf?]

theorem isNaN_iff {x : Float} : x.isNaN = true ↔ sideOf? x = none := by
  have hnan : x.isNaN = x.toModel.unpack.isNaN := rfl
  rw [hnan, sideOf?]
  rcases x.toModel.unpack with (_ | _) | _ | _ | ⟨_ | _, m, e, hm⟩ <;>
    simp [UnpackedFloat.isNaN, side?]

/-- A double that is not below zero is at least zero, if it is a number at all. -/
theorem zero_le_iff_not_lt {x : Float} : 0 ≤ x ↔ ¬ x < 0 ∧ ¬ x.isNaN = true := by
  rw [zero_le_iff, lt_zero_iff, isNaN_iff]
  rcases sideOf? x with _ | _ | _ | _ <;> simp

/-! ### Amounts about zero -/

/-- Where an exact value lies from zero. -/
def Extent.side? : Extent → Option Ordering
  | .undefined => none
  | .infinite true => some .lt
  | .infinite false => some .gt
  | .finite significand _ => some (compare significand 0)

theorem Extent.lt_zero_iff {e : Extent} : e.lt (.finite 0 0) = true ↔ e.side? = some .lt := by
  rcases e with _ | (_ | _) | ⟨m, k⟩
  · simp [Extent.lt, Extent.side?]
  · simp [Extent.lt, Extent.side?]
  · simp [Extent.lt, Extent.side?]
  · have hpos : (0 : Int) < pow2 (k - 0).toNat := Int.natCast_pos.mpr (pow2_pos _)
    rw [Extent.lt, decide_eq_true_iff, zero_mul, ← not_le, mul_nonneg_iff_of_pos_right hpos,
      not_le, Extent.side?, Option.some_inj, compare_lt_iff_lt]

theorem Extent.zero_lt_iff {e : Extent} :
    Extent.lt (.finite 0 0) e = true ↔ e.side? = some .gt := by
  rcases e with _ | (_ | _) | ⟨m, k⟩
  · simp [Extent.lt, Extent.side?]
  · simp [Extent.lt, Extent.side?]
  · simp [Extent.lt, Extent.side?]
  · have hpos : (0 : Int) < pow2 (k - 0).toNat := Int.natCast_pos.mpr (pow2_pos _)
    rw [Extent.lt, decide_eq_true_iff, zero_mul, mul_pos_iff_of_pos_right hpos, Extent.side?,
      Option.some_inj, compare_gt_iff_gt]

/-- A double lies where its exact value lies. -/
theorem side?_extentOfFloat (x : Float) : (Amount.extentOfFloat x).side? = sideOf? x := by
  have hlt : decide (x < 0) = (sideOf? x == some .lt) := by
    rw [Bool.eq_iff_iff, decide_eq_true_iff, Number.lt_zero_iff, beq_iff_eq]
  have hnan : x.isNaN = (sideOf? x == none) := by
    rw [Bool.eq_iff_iff, isNaN_iff, beq_iff_eq]
  rw [Amount.extentOfFloat, ofFloat?_eq, hlt, hnan, sideOf?]
  rcases x.toModel.unpack with (_ | _) | _ | _ | ⟨_ | _, m, e, hm⟩
  · rfl
  · rfl
  · rfl
  · simp [Binary.ofUnpacked?, side?, Extent.side?]
  · have hbelow : -(m : Int) < 0 := by omega
    exact congrArg some (compare_lt_iff_lt.mpr hbelow)
  · have habove : 0 < (m : Int) := by omega
    exact congrArg some (compare_gt_iff_gt.mpr habove)

/-- An amount is below zero, or above it, as its exact value is. -/
theorem Amount.isNegative_iff {a : Amount} : a.isNegative = true ↔ a.extent.side? = some .lt :=
  Extent.lt_zero_iff

theorem Amount.isPositive_iff {a : Amount} : a.isPositive = true ↔ a.extent.side? = some .gt :=
  Extent.zero_lt_iff

/-- The amount is at least zero. -/
def Amount.AtLeastZero : Amount → Prop
  | .flag _ => True
  | .whole n => 0 ≤ n
  | .real x => 0 ≤ x

/-- The amount is an undefined number. -/
def Amount.Undefined : Amount → Prop
  | .real x => x.isNaN = true
  | _ => False

theorem Amount.side?_extent (a : Amount) :
    a.extent.side? = match a with
      | .flag b => some (if b then .gt else .eq)
      | .whole n => some (compare n 0)
      | .real x => sideOf? x := by
  cases a with
  | flag b => cases b <;> rfl
  | whole n => rfl
  | real x => exact side?_extentOfFloat x

theorem Amount.isNegative_whole_iff {n : Int} : (Amount.whole n).isNegative = true ↔ n < 0 := by
  rw [Amount.isNegative_iff, Amount.side?_extent]
  exact Option.some_inj.trans compare_lt_iff_lt

theorem Amount.isNegative_real_iff {x : Float} : (Amount.real x).isNegative = true ↔ x < 0 := by
  rw [Amount.isNegative_iff, Amount.side?_extent, lt_zero_iff]

/-- An amount that is not below zero is at least zero, if it is a number at all. -/
theorem Amount.isNegative_eq_false_iff {a : Amount} :
    a.isNegative = false ↔ a.AtLeastZero ∨ a.Undefined := by
  rw [Bool.eq_false_iff, ne_eq]
  cases a with
  | flag b => cases b <;> simp [Amount.isNegative_iff, Amount.side?_extent, AtLeastZero]
  | whole n => simp [Amount.isNegative_whole_iff, AtLeastZero, Undefined]
  | real x =>
      rw [Amount.isNegative_real_iff, AtLeastZero, Undefined, zero_le_iff, lt_zero_iff, isNaN_iff]
      rcases sideOf? x with _ | _ | _ | _ <;> simp

theorem Amount.atLeastZero_iff_of_not_negative {a : Amount} (h : a.isNegative = false) :
    a.AtLeastZero ↔ ¬ a.Undefined := by
  refine ⟨fun hzero hundefined => ?_, (Amount.isNegative_eq_false_iff.mp h).resolve_right⟩
  cases a with
  | real x =>
      rw [AtLeastZero, zero_le_iff_not_lt] at hzero
      exact hzero.2 hundefined
  | _ => exact hundefined

/-- The amount is zero. -/
def Amount.IsZero : Amount → Prop
  | .flag b => b = false
  | .whole n => n = 0
  | .real x => (x == 0) = true

/-- An amount that is not below zero is above it, unless it is zero or no number at all. -/
theorem Amount.isPositive_iff_of_not_negative {a : Amount} (h : a.isNegative = false) :
    a.isPositive = true ↔ ¬ a.IsZero ∧ ¬ a.Undefined := by
  rw [Bool.eq_false_iff, ne_eq, Amount.isNegative_iff, Amount.side?_extent] at h
  rw [Amount.isPositive_iff, Amount.side?_extent]
  cases a with
  | flag b => cases b <;> simp [IsZero, Undefined]
  | whole n =>
      rw [Option.some_inj, compare_lt_iff_lt] at h
      simp only [Option.some_inj, compare_gt_iff_gt, IsZero, Undefined, not_false_iff, and_true]
      omega
  | real x =>
      rw [IsZero, Undefined, beq_zero_iff, isNaN_iff]
      dsimp only at h ⊢
      rcases hside : sideOf? x with _ | _ | _ | _ <;> simp_all

end Vigil.Number
