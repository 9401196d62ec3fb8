import Vigil.Number.Binary
import Vigil.Number.Digits
import Vigil.Number.Layout
import Vigil.Number.Nearest

/-!
# Amounts of seconds as they are written down

A wait may be given as a whole number of any size, as a double, or as a truth value that counts as
zero or one. An amount keeps the form in which it was given, because messages repeat it, while two
amounts compare by their exact values.
-/

namespace Vigil.Number

/-- A number as it was given. -/
inductive Amount where
  | flag (b : Bool)
  | whole (n : Int)
  | real (x : Float)
  deriving Inhabited

/-- The exact value behind an amount. -/
inductive Extent where
  | undefined
  | infinite (negative : Bool)
  | finite (significand exponent : Int)
  deriving DecidableEq, Repr

namespace Extent

/-- Strict order by value; an undefined number is neither below nor above anything. -/
def lt : Extent → Extent → Bool
  | undefined, _ => false
  | _, undefined => false
  | infinite true, infinite true => false
  | infinite true, _ => true
  | infinite false, _ => false
  | finite _ _, infinite negative => !negative
  | finite m e, finite n f =>
      decide (m * (pow2 (e - f).toNat : Int) < n * (pow2 (f - e).toNat : Int))

end Extent

namespace Amount

/-- The exact value of a double. -/
def extentOfFloat (x : Float) : Extent :=
  match Binary.ofFloat? x with
  | some b =>
      .finite (if b.negative then -(b.significand : Int) else b.significand) b.exponent
  | none => if x.isNaN then .undefined else .infinite (decide (x < 0))

/-- The exact value of an amount. -/
def extent : Amount → Extent
  | flag b => .finite (if b then 1 else 0) 0
  | whole n => .finite n 0
  | real x => extentOfFloat x

/-- Zero seconds. -/
def zero : Amount := .whole 0

/-- Strict order by value. -/
def lt (a b : Amount) : Bool := a.extent.lt b.extent

/-- The amount is below zero. -/
def isNegative (a : Amount) : Bool := a.lt zero

/-- The amount is above zero. -/
def isPositive (a : Amount) : Bool := zero.lt a

/-- The double nearest to an amount; `none` for a whole number beyond the largest double. -/
def toFloat? : Amount → Option Float
  | flag b => some (if b then 1.0 else 0.0)
  | whole n => nearestInt? n
  | real x => some x

/-- The amount as it was given. -/
def text : Amount → Except Defect String
  | flag b => .ok (if b then "True" else "False")
  | whole n => wholeText n
  | real x => .ok (plainLayout.text x)

end Amount

end Vigil.Number
