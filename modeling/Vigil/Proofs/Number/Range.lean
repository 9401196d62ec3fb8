import Vigil.Proofs.Number.Sign

/-!
# Which whole numbers have a nearest double

A whole number is rounded to the nearest double, unless it is so large that the nearest one would
lie beyond the largest.  That happens halfway between the largest double and the next power of two,
and the midpoint itself goes up.
-/

namespace Vigil.Number

/-! ### Rounding -/

theorem div_le_roundDiv (num den : Nat) : num / den ≤ roundDiv num den := by
  simp only [roundDiv]
  split_ifs <;> omega

theorem roundDiv_le_div_add_one (num den : Nat) : roundDiv num den ≤ num / den + 1 := by
  simp only [roundDiv]
  split_ifs <;> omega

/-- A quotient is rounded to less than an even number if it lies more than one half below it: the
half itself goes up. -/
theorem roundDiv_lt_even_iff {num den : Nat} (hden : 0 < den) (k : Nat) :
    roundDiv num den < 2 * k ↔ 2 * num + den < 4 * k * den := by
  have hsplit := Nat.div_add_mod num den
  have hrest := Nat.mod_lt num hden
  have hbelow := div_le_roundDiv num den
  have habove := roundDiv_le_div_add_one num den
  have hproduct : 4 * k * den = 2 * (den * (2 * k)) := by ring
  rcases Nat.lt_trichotomy (num / den + 1) (2 * k) with hlt | heq | hgt
  · have hfar : den * (num / den + 2) ≤ den * (2 * k) := Nat.mul_le_mul_left den hlt
    rw [Nat.mul_add] at hfar
    omega
  · have hnear : den * (2 * k) = den * (num / den) + den := by rw [← heq, Nat.mul_add, Nat.mul_one]
    simp only [roundDiv]
    split_ifs <;> omega
  · have hfar : den * (2 * k) ≤ den * (num / den) := Nat.mul_le_mul_left den (by omega)
    omega

/-! ### Whole numbers -/

theorem binaryExponent_one {n : Nat} (hn : n ≠ 0) : binaryExponent n 1 = (n.log2 : Int) := by
  have hone : Nat.log2 1 = 0 := by decide
  have hreaches : pow2 n.log2 ≤ n := Nat.log2_self_le hn
  simp [binaryExponent, hone, hreaches]

/-- The significand of the double nearest to a whole number, before it is known to fit. -/
def wholeSignificand (n : Nat) : Nat :=
  if 52 ≤ n.log2 then roundDiv n (2 ^ (n.log2 - 52)) else n * 2 ^ (52 - n.log2)

theorem nearestWord?_one {n : Nat} (hn : n ≠ 0) :
    nearestWord? n 1 =
      if (n.log2 + 1022) * 2 ^ 52 + wholeSignificand n < infinityWord then
        some ((n.log2 + 1022) * 2 ^ 52 + wholeSignificand n)
      else none := by
  have hunit : max ((n.log2 : Int) - 52) (-1074) = (n.log2 : Int) - 52 := by omega
  have hfield : ((n.log2 : Int) - 52 + 1074).toNat = n.log2 + 1022 := by omega
  have hsignificand : (if 0 ≤ (n.log2 : Int) - 52 then
      roundDiv n (1 * pow2 ((n.log2 : Int) - 52).toNat)
      else roundDiv (n * pow2 (-((n.log2 : Int) - 52)).toNat) 1) = wholeSignificand n := by
    rw [wholeSignificand]
    by_cases hlarge : 52 ≤ n.log2
    · have hexponent : ((n.log2 : Int) - 52).toNat = n.log2 - 52 := by omega
      rw [if_pos (by omega), if_pos hlarge, hexponent, Nat.one_mul]
      rfl
    · have hexponent : (-((n.log2 : Int) - 52)).toNat = 52 - n.log2 := by omega
      rw [if_neg (by omega), if_neg hlarge, hexponent, roundDiv_one]
      rfl
  rw [nearestWord?, if_neg (by omega), binaryExponent_one hn]
  simp only [hunit, hfield, hsignificand]
  rfl

/-- The significand has 53 binary digits, or is the next power of two. -/
theorem wholeSignificand_mem {n : Nat} (hn : n ≠ 0) :
    2 ^ 52 ≤ wholeSignificand n ∧ wholeSignificand n ≤ 2 ^ 53 := by
  have hlow : 2 ^ n.log2 ≤ n := Nat.log2_self_le hn
  have hhigh : n < 2 ^ (n.log2 + 1) := Nat.lt_log2_self
  rw [wholeSignificand]
  split_ifs with hlarge
  · have hpos : 0 < 2 ^ (n.log2 - 52) := Nat.two_pow_pos _
    have hquotient : 2 ^ 52 ≤ n / 2 ^ (n.log2 - 52) := by
      rw [Nat.le_div_iff_mul_le hpos, ← Nat.pow_add]
      rwa [show 52 + (n.log2 - 52) = n.log2 by omega]
    have hlimit : n / 2 ^ (n.log2 - 52) < 2 ^ 53 := by
      rw [Nat.div_lt_iff_lt_mul hpos, ← Nat.pow_add]
      rwa [show 53 + (n.log2 - 52) = n.log2 + 1 by omega]
    have hbelow := div_le_roundDiv n (2 ^ (n.log2 - 52))
    have habove := roundDiv_le_div_add_one n (2 ^ (n.log2 - 52))
    omega
  · constructor
    · calc 2 ^ 52 = 2 ^ n.log2 * 2 ^ (52 - n.log2) := by
            rw [← Nat.pow_add, show n.log2 + (52 - n.log2) = 52 by omega]
        _ ≤ n * 2 ^ (52 - n.log2) := Nat.mul_le_mul_right _ hlow
    · calc n * 2 ^ (52 - n.log2) ≤ 2 ^ (n.log2 + 1) * 2 ^ (52 - n.log2) :=
            Nat.mul_le_mul_right _ hhigh.le
        _ = 2 ^ 53 := by rw [← Nat.pow_add, show n.log2 + 1 + (52 - n.log2) = 53 by omega]

/-- Half the distance of the largest doubles. -/
def halfStep : Nat := 2 ^ 970

/-- The least whole number that has no nearest double: the midpoint of the largest double and the
next power of two. -/
def firstTooLarge : Nat := (2 ^ 54 - 1) * halfStep

theorem halfStep_pos : 0 < halfStep := by decide +kernel

/-- A whole number has a nearest double if it is smaller than that midpoint. -/
theorem nearestWord?_eq_none_iff (n : Nat) : nearestWord? n 1 = none ↔ firstTooLarge ≤ n := by
  by_cases hn : n = 0
  · subst hn
    have hpos : ¬ firstTooLarge ≤ 0 := by decide +kernel
    simp [nearestWord?, hpos]
  obtain ⟨hleast, hmost⟩ := wholeSignificand_mem hn
  have hword : nearestWord? n 1 = none ↔
      2047 * 2 ^ 52 ≤ (n.log2 + 1022) * 2 ^ 52 + wholeSignificand n := by
    rw [nearestWord?_one hn, infinityWord]
    split_ifs with h
    · exact iff_of_false not_false (by omega)
    · exact iff_of_true rfl (by omega)
  rw [hword]
  rcases Nat.lt_trichotomy n.log2 1023 with hlt | heq | hgt
  · have hsmall : n < firstTooLarge := ((Nat.log2_lt hn).mp hlt).trans_le (by decide +kernel)
    refine iff_of_false ?_ (not_le.mpr hsmall)
    clear hsmall
    omega
  · -- the last exponent: rounding up carries into the word of the infinity
    have hsignificand : wholeSignificand n = roundDiv n (2 * halfStep) := by
      rw [wholeSignificand, heq, if_pos (by decide), halfStep, ← Nat.pow_succ']
    have hpos : 0 < 2 * halfStep := Nat.mul_pos Nat.two_pos halfStep_pos
    have hround := @roundDiv_lt_even_iff n _ hpos (2 ^ 52)
    rw [← hsignificand] at hround
    rw [heq, firstTooLarge]
    clear hsignificand
    generalize halfStep = half at hround ⊢
    omega
  · have hlarge : firstTooLarge ≤ n := le_trans (by decide +kernel) ((Nat.le_log2 hn).mp hgt)
    refine iff_of_true ?_ hlarge
    clear hlarge
    omega

/-! ### Doubles of whole numbers -/

open Float.Model (UnpackedFloat)
open Float.Model.UnpackedFloat (unpackSign unpackExponent)

theorem nearestInt?_eq_none_iff {n : Int} : nearestInt? n = none ↔ firstTooLarge ≤ n.natAbs := by
  rw [nearestInt?, nearest?, Option.map_eq_none_iff, nearestWord?_eq_none_iff]

theorem nearestWord?_lt {num den word : Nat} (h : nearestWord? num den = some word) :
    word < infinityWord := by
  rw [nearestWord?] at h
  by_cases hzero : num = 0 ∨ den = 0
  · rw [if_pos hzero] at h
    obtain rfl := Option.some.inj h
    decide
  · rw [if_neg hzero] at h
    obtain ⟨hword, hsome⟩ := Option.ite_none_right_eq_some.mp h
    exact Option.some.inj hsome ▸ hword

/-- A word without a sign that is smaller than that of the infinity is the word of a double that is
at least zero. -/
theorem zero_le_ofBits {w : UInt64} (h : w.toNat < infinityWord) : 0 ≤ Float.ofBits w := by
  rw [infinityWord] at h
  have hword : (Float.ofBits w).toModel.toBits = w := toBits_ofBits (by omega)
  have hsign : @unpackSign .binary64 w.toBitVec = 0#1 := by
    apply BitVec.eq_of_toNat_eq
    rw [toNat_unpackSign, UInt64.toNat_toBitVec, Nat.div_eq_of_lt (by omega)]
    rfl
  have hexponent : @unpackExponent .binary64 w.toBitVec ≠ -1#_ := by
    rw [unpackExponent_ne_iff, UInt64.toNat_toBitVec]
    omega
  rw [zero_le_iff, sideOf?, Float.Model.unpack, hword, UnpackedFloat.unpack]
  simp only [hexponent, hsign, if_false]
  split_ifs
  · exact .inl rfl
  · exact .inr rfl
  · exact .inr rfl

/-- A whole number that is not below zero has a double that is at least zero. -/
theorem zero_le_of_nearestInt? {n : Int} (hn : 0 ≤ n) {x : Float} (h : nearestInt? n = some x) :
    0 ≤ x := by
  rw [nearestInt?, nearest?, decide_eq_false (not_lt.mpr hn)] at h
  obtain ⟨word, hword, rfl⟩ := Option.map_eq_some_iff.mp h
  have hlt := nearestWord?_lt hword
  apply zero_le_ofBits
  rw [Nat.toUInt64_eq, UInt64.toNat_ofNat']
  exact (Nat.mod_le _ _).trans_lt hlt

end Vigil.Number
