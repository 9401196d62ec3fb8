/-!
# Powers of two and ten

Doubles are counted in powers of two and written in powers of ten.
-/

namespace Vigil.Number

/-- Two multiplied with itself. -/
def pow2 (n : Nat) : Nat := Nat.pow 2 n

/-- Ten multiplied with itself. -/
def pow10 (n : Nat) : Nat := Nat.pow 10 n

/-- No power of two is zero. -/
theorem pow2_pos (n : Nat) : 0 < pow2 n := Nat.pow_pos (by decide)

/-- No power of ten is zero. -/
theorem pow10_pos (n : Nat) : 0 < pow10 n := Nat.pow_pos (by decide)

end Vigil.Number
