import Vigil.Number.Power
import Vigil.Number.Rounding

/-!
# The double nearest to a quotient

A quotient of whole numbers is rounded once, with ties to the even significand. Magnitudes beyond
the largest double have no nearest one here; the caller says what that means.
-/

namespace Vigil.Number

/-- The largest `k` with `2 ^ k ≤ num / den`, for a positive quotient. -/
def binaryExponent (num den : Nat) : Int :=
  let guess : Int := (Nat.log2 num : Int) - (Nat.log2 den : Int)
  let reaches :=
    if 0 ≤ guess then den * pow2 guess.toNat ≤ num else den ≤ num * pow2 (-guess).toNat
  if reaches then guess else guess - 1

/-- The word of the first infinity: every finite magnitude has a smaller one. -/
def infinityWord : Nat := 0x7ff0000000000000

/-- The word of the double nearest to `num / den`, or `none` beyond the largest double. Carrying out
of the significand moves into the exponent, which the sum of the two fields does by itself. -/
def nearestWord? (num den : Nat) : Option Nat :=
  if num = 0 ∨ den = 0 then some 0
  else
    let unit : Int := max (binaryExponent num den - 52) (-1074)
    let significand :=
      if 0 ≤ unit then roundDiv num (den * pow2 unit.toNat)
      else roundDiv (num * pow2 (-unit).toNat) den
    let word := (unit + 1074).toNat * pow2 52 + significand
    if word < infinityWord then some word else none

/-- The double nearest to `± num / den`. -/
def nearest? (negative : Bool) (num den : Nat) : Option Float :=
  (nearestWord? num den).map fun word =>
    let x := Float.ofBits word.toUInt64
    if negative then -x else x

/-- The double nearest to a whole number. -/
def nearestInt? (n : Int) : Option Float := nearest? (decide (n < 0)) n.natAbs 1

end Vigil.Number
