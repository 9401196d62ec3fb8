import Mathlib
import Vigil.Number.Binary

/-!
# The word of a double

A double is its word of 64 bits: one for the sign, eleven for the exponent, the rest for the
fraction.  Reading the three fields by dividing the word as a number and reading them off its bits
comes to the same, and a word that is no undefined number is the word of the double that it makes.
-/

namespace Vigil.Number

open Float.Model
open Float.Model.UnpackedFloat

/-! ### The three fields -/

theorem toNat_unpackExponent (b : BitVec 64) :
    (@unpackExponent .binary64 b).toNat = b.toNat / 2 ^ 52 % 2 ^ 11 := by
  change (b.toNat >>> 52) % 2 ^ 11 = _
  rw [Nat.shiftRight_eq_div_pow]

theorem toNat_unpackMantissa (b : BitVec 64) :
    (@unpackMantissa .binary64 b).toNat = b.toNat % 2 ^ 52 := by
  change (b.toNat >>> 0) % 2 ^ 52 = _
  rw [Nat.shiftRight_zero]

theorem toNat_unpackSign (b : BitVec 64) :
    (@unpackSign .binary64 b).toNat = b.toNat / 2 ^ 63 % 2 := by
  change (b.toNat >>> 63) % 2 ^ 1 = _
  rw [Nat.shiftRight_eq_div_pow]

theorem toNat_implicit_append (m : BitVec 52) : (1#1 ++ m).toNat = 2 ^ 52 + m.toNat := by
  rw [BitVec.toNat_append, ← Nat.shiftLeft_add_eq_or_of_lt m.isLt]
  rfl

theorem toNat_packComponents (s : Sign) (e : BitVec 11) (m : BitVec 52) :
    (packComponents .binary64 s e m).toNat =
      s.toBitVec.toNat * 2 ^ 63 + e.toNat * 2 ^ 52 + m.toNat := by
  rw [packComponents, BitVec.toNat_append, BitVec.toNat_append,
    ← Nat.shiftLeft_add_eq_or_of_lt m.isLt, ← Nat.shiftLeft_add_eq_or_of_lt e.isLt,
    Nat.shiftLeft_eq, Nat.shiftLeft_eq]
  omega

theorem toBitVec_ofBitVec (b : BitVec 1) : (Sign.ofBitVec b).toBitVec = b := by
  revert b
  decide

/-- A word is made of its fields. -/
theorem packComponents_unpack (b : BitVec 64) :
    packComponents .binary64 (Sign.ofBitVec (@unpackSign .binary64 b))
      (@unpackExponent .binary64 b) (@unpackMantissa .binary64 b) = b := by
  apply BitVec.eq_of_toNat_eq
  rw [toNat_packComponents, toBitVec_ofBitVec, toNat_unpackSign, toNat_unpackExponent,
    toNat_unpackMantissa]
  have hlt := b.isLt
  omega

/-! ### Words of numbers -/

theorem exponentBias_eq : Format.binary64.exponentBias = 1023 := rfl

theorem mantissaBits_eq : Format.binary64.mantissaBits = 53 := rfl

/-- Packing a number whose significand has the implicit bit. -/
theorem pack_normal (s : Sign) (e : BitVec 11) (m : BitVec 52) {exponent : Int}
    (hexponent : exponent = (e.toNat : Int) - 1075) (hlimit : e.toNat < 2047)
    (hmantissa : 0 < 2 ^ 52 + m.toNat) :
    UnpackedFloat.pack .binary64 (.finite s (2 ^ 52 + m.toNat) exponent hmantissa) =
      packComponents .binary64 s e m := by
  have hfraction := m.isLt
  have hbiased : (exponent + (1023 : Nat) + (52 : Nat)).toNat = e.toNat := by omega
  have hlog : (2 ^ 52 + m.toNat).log2 = 52 := (Nat.log2_eq_iff (by omega)).mpr (by omega)
  have hrest : BitVec.ofNat 52 (2 ^ 52 + m.toNat) = m := by
    apply BitVec.eq_of_toNat_eq
    rw [BitVec.toNat_ofNat]
    omega
  have hfield : ¬ 2 ^ 11 ≤ e.toNat + 1 := by omega
  simp only [UnpackedFloat.pack, exponentBias_eq, hbiased, hlog, mantissaBits_eq, hrest,
    BitVec.ofNat_toNat, BitVec.setWidth_eq, if_neg hfield, Nat.reduceAdd, if_true]

/-- Packing a number whose significand lacks the implicit bit. -/
theorem pack_subnormal (s : Sign) (m : BitVec 52) (hmantissa : 0 < m.toNat) :
    UnpackedFloat.pack .binary64 (.finite s m.toNat (-1074) hmantissa) =
      packComponents .binary64 s 0#11 m := by
  have hlog : m.toNat.log2 < 52 := (Nat.log2_lt (by omega)).mpr m.isLt
  have hshort : ¬ m.toNat.log2 + 1 = 53 := by omega
  have hbiased : ((-1074 : Int) + (1023 : Nat) + (52 : Nat)).toNat = 1 := rfl
  simp only [UnpackedFloat.pack, exponentBias_eq, hbiased, mantissaBits_eq, if_neg hshort,
    BitVec.ofNat_toNat, BitVec.setWidth_eq, Nat.reducePow, Nat.reduceAdd, Nat.reduceLeDiff, if_false]

/-- Whatever the fields of a word that is a number are, they are found again. -/
theorem pack_unpack {b : BitVec 64} (h : @unpackExponent .binary64 b ≠ -1#_) :
    UnpackedFloat.pack .binary64 (UnpackedFloat.unpack .binary64 b) = b := by
  have hword := packComponents_unpack b
  rw [UnpackedFloat.unpack]
  simp only [h, if_false]
  split_ifs with hexponent hmantissa
  · rw [hexponent, hmantissa] at hword
    exact hword
  · rw [hexponent] at hword
    simp only [hexponent]
    refine Eq.trans ?_ hword
    exact pack_subnormal _ (@unpackMantissa .binary64 b) _
  · have hlimit : (@unpackExponent .binary64 b).toNat < 2047 := by
      have hlt : (@unpackExponent .binary64 b).toNat < 2 ^ 11 := BitVec.isLt _
      have hne : (@unpackExponent .binary64 b).toNat ≠ 2047 := fun heq =>
        h (BitVec.eq_of_toNat_eq heq)
      omega
    simp only [toNat_implicit_append]
    refine Eq.trans ?_ hword
    exact pack_normal _ _ (@unpackMantissa .binary64 b) rfl hlimit _

/-- The exponent field of the words of numbers is not the largest one. -/
theorem unpackExponent_ne_iff {b : BitVec 64} :
    @unpackExponent .binary64 b ≠ -1#_ ↔ b.toNat / 2 ^ 52 % 2 ^ 11 ≠ 2047 := by
  rw [← toNat_unpackExponent, ne_eq, ne_eq, ← BitVec.toNat_inj]
  rfl

/-- A word that is a number is the word of its double. -/
theorem toBits_ofBits {w : UInt64} (h : w.toNat / 2 ^ 52 % 2 ^ 11 ≠ 2047) :
    (Float.ofBits w).toModel.toBits = w := by
  apply UInt64.toBitVec_inj.mp
  exact pack_unpack (unpackExponent_ne_iff.mpr h)

/-! ### Exact values -/

/-- The exact value of an unpacked double; `none` for an infinity or an undefined number. -/
def Binary.ofUnpacked? : UnpackedFloat → Option Binary
  | .finite s m e _ => some ⟨s == .negative, m, e⟩
  | .zero s => some ⟨s == .negative, 0, -1074⟩
  | .infinity _ => none
  | .notANumber => none

theorem ofBitVec_eq_negative (b : BitVec 1) : (Sign.ofBitVec b == .negative) = (b.toNat == 1) := by
  revert b
  decide

/-- The fields of the word give the exact value of a double. -/
theorem ofFloat?_eq (x : Float) : Binary.ofFloat? x = Binary.ofUnpacked? x.toModel.unpack := by
  have hexponent : x.toBits.toNat / pow2 52 % pow2 11 =
      (@unpackExponent .binary64 x.toModel.toBits.toBitVec).toNat :=
    (toNat_unpackExponent _).symm
  have hfraction : x.toBits.toNat % pow2 52 =
      (@unpackMantissa .binary64 x.toModel.toBits.toBitVec).toNat :=
    (toNat_unpackMantissa _).symm
  have hsign : (x.toBits.toNat / pow2 63 % 2 == 1) =
      (Sign.ofBitVec (@unpackSign .binary64 x.toModel.toBits.toBitVec) == .negative) := by
    rw [ofBitVec_eq_negative, toNat_unpackSign]
    rfl
  have hlast : (@unpackExponent .binary64 x.toModel.toBits.toBitVec).toNat = 2047 ↔
      @unpackExponent .binary64 x.toModel.toBits.toBitVec = -1#_ := by
    rw [← BitVec.toNat_inj]
    rfl
  have hfirst : (@unpackExponent .binary64 x.toModel.toBits.toBitVec).toNat = 0 ↔
      @unpackExponent .binary64 x.toModel.toBits.toBitVec = 0#_ := by
    rw [← BitVec.toNat_inj]
    rfl
  simp only [Binary.ofFloat?, Binary.ofWord?, hexponent, hfraction, hsign, hlast, hfirst,
    Float.Model.unpack, UnpackedFloat.unpack]
  split_ifs with hinfinite hfraction hzero hfraction
  · rfl
  · rfl
  · rw [hfraction]
    rfl
  · rw [hzero]
    rfl
  · simp only [toNat_implicit_append]
    rfl

end Vigil.Number
