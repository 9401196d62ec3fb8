import Vigil.Number.Power

/-!
# The exact value of a double

A finite double is `± significand * 2 ^ exponent` with whole numbers. Printing and comparing go
through this value, so that neither ever depends on a rounded intermediate result.
-/

namespace Vigil.Number

/-- The number `± significand * 2 ^ exponent`. -/
structure Binary where
  negative : Bool
  significand : Nat
  exponent : Int
  deriving DecidableEq, Repr, Inhabited

namespace Binary

/-- Reads the 64-bit word of a double; `none` for an infinity or an undefined number. -/
def ofWord? (word : Nat) : Option Binary :=
  let field : Nat := word / pow2 52 % pow2 11
  let fraction : Nat := word % pow2 52
  let negative := word / pow2 63 % 2 == 1
  if field = 2047 then none
  else if field = 0 then some ⟨negative, fraction, -1074⟩
  else some ⟨negative, pow2 52 + fraction, (field : Int) - 1075⟩

/-- The exact value of a double; `none` for an infinity or an undefined number. -/
def ofFloat? (x : Float) : Option Binary := ofWord? x.toBits.toNat

/-- The numerator and denominator of the magnitude. -/
def quotient (b : Binary) : Nat × Nat :=
  if 0 ≤ b.exponent then (b.significand * pow2 b.exponent.toNat, 1)
  else (b.significand, pow2 (-b.exponent).toNat)

/-- The denominator is a power of two, so it is never zero. -/
theorem quotient_snd_pos (b : Binary) : 0 < b.quotient.2 := by
  unfold quotient
  split
  · exact Nat.one_pos
  · exact pow2_pos _

end Binary

end Vigil.Number
