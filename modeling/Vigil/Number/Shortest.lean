import Vigil.Number.Binary

/-!
# The fewest decimal digits that read back

Between a double and its two neighbours lie the numbers that round to it. The text of a double
takes, among the decimal grids of one digit, two digits and so on, the first that has a point in
that interval, and on that grid the point nearest to the double.
-/

namespace Vigil.Number

/-- The number `digits * 10 ^ exponent`. -/
structure Decimal where
  digits : Nat
  exponent : Int
  deriving DecidableEq, Repr, Inhabited

namespace Shortest

/-- `significand * 2 ^ exponent / 10 ^ grid` as a numerator over a denominator. -/
def onGrid (significand : Nat) (exponent grid : Int) : Nat × Nat :=
  let up := significand * pow2 exponent.toNat * pow10 (-grid).toNat
  let down := pow2 (-exponent).toNat * pow10 grid.toNat
  (up, down)

/-- The largest `k` with `10 ^ k ≤ significand * 2 ^ exponent`, for a positive significand. -/
def decimalExponent (significand : Nat) (exponent : Int) : Int :=
  let bits : Int := (Nat.log2 significand : Int) + exponent
  let guess := bits * 30103 / 100000
  let atLeast (k : Int) : Bool :=
    let (up, down) := onGrid significand exponent k
    decide (down ≤ up)
  if atLeast (guess + 1) then guess + 1 else if atLeast guess then guess else guess - 1

/-- The interval of numbers that round to `significand * 2 ^ exponent`, in quarters of a unit of the
significand. Below a power of two the neighbour is half as far away. -/
def interval (significand : Nat) (exponent : Int) : Nat × Nat :=
  let low :=
    if significand = pow2 52 ∧ -1074 < exponent then 4 * significand - 1 else 4 * significand - 2
  (low, 4 * significand + 2)

/-- A point `d` of the grid rounds to the number; the ends of the interval do so when the
significand is even. -/
def readsBack (significand : Nat) (exponent grid : Int) (d : Nat) : Bool :=
  let (low, high) := interval significand exponent
  let (lowUp, down) := onGrid low (exponent - 2) grid
  let (highUp, _) := onGrid high (exponent - 2) grid
  if significand % 2 = 0 then decide (lowUp ≤ d * down) && decide (d * down ≤ highUp)
  else decide (lowUp < d * down) && decide (d * down < highUp)

/-- The point of the grid that stands for the number, if one of its two neighbours there reads back:
the nearer one, and of two equally near ones the even one. -/
def pick? (significand : Nat) (exponent grid : Int) : Option Nat :=
  let (up, down) := onGrid significand exponent grid
  let below := up / down
  let rest := up % down
  let downOk := readsBack significand exponent grid below
  let upOk := readsBack significand exponent grid (below + 1)
  if downOk && upOk then
    if 2 * rest < down then some below
    else if down < 2 * rest then some (below + 1)
    else if below % 2 = 0 then some below else some (below + 1)
  else if downOk then some below
  else if upOk then some (below + 1)
  else none

/-- Tries the grids of `count`, `count + 1`, … digits. -/
def search (significand : Nat) (exponent leading : Int) : Nat → Int → Decimal
  | 0, count => ⟨(pick? significand exponent (leading - count + 1)).getD 0, leading - count + 1⟩
  | fuel + 1, count =>
      let grid := leading - count + 1
      match pick? significand exponent grid with
      | some d => ⟨d, grid⟩
      | none => search significand exponent leading fuel (count + 1)

end Shortest

/-- The shortest decimal that reads back as `significand * 2 ^ exponent`. Seventeen digits always
suffice for a double. -/
def shortest (significand : Nat) (exponent : Int) : Decimal :=
  if significand = 0 then ⟨0, 0⟩
  else
    Shortest.search significand exponent (Shortest.decimalExponent significand exponent) 16 1

end Vigil.Number
