import Vigil.Number.Rounding
import Vigil.Number.Shortest

/-!
# How a double is written

Two written forms occur: the shortest text that reads back, and a fixed number of places.
-/

namespace Vigil.Number

/-- The choices that a written form leaves open. -/
structure Layout where
  /-- The least decimal exponent that is still written out in places. -/
  least : Int
  /-- The greatest decimal exponent that is still written out in places. -/
  greatest : Int
  /-- What follows the digits of a whole number. -/
  wholeMark : String
  /-- How many digits an exponent has at least. -/
  exponentWidth : Nat
  infinity : String
  undefined : String

/-- Numbers are written out from `0.0001` up to sixteen places before the point, whole ones end in
`.0`, and an exponent has a sign and at least two digits. -/
def plainLayout : Layout :=
  { least := -4
    greatest := 15
    wholeMark := ".0"
    exponentWidth := 2
    infinity := "inf"
    undefined := "nan" }

/-- A text of `n` zeros. -/
def zeros (n : Nat) : List Char := List.replicate n '0'

/-- Drops the zeros that end a number and counts them into its exponent. -/
def trimZeros : Nat → Decimal → Decimal
  | 0, d => d
  | fuel + 1, d =>
      if d.digits = 0 then d
      else if d.digits % 10 = 0 then trimZeros fuel ⟨d.digits / 10, d.exponent + 1⟩
      else d

namespace Layout

/-- The exponent part of a number. -/
def exponentText (layout : Layout) (k : Int) : List Char :=
  let digits := (toString k.natAbs).toList
  let sign := if k < 0 then '-' else '+'
  'e' :: sign :: (zeros (layout.exponentWidth - digits.length) ++ digits)

/-- The text of `digits * 10 ^ exponent`. -/
def decimalText (layout : Layout) (d : Decimal) : List Char :=
  let d := trimZeros 400 d
  let digits := (toString d.digits).toList
  let count := digits.length
  let k : Int := if d.digits = 0 then 0 else d.exponent + count - 1
  if layout.least ≤ k ∧ k ≤ layout.greatest then
    if k < 0 then '0' :: '.' :: (zeros (-k - 1).toNat ++ digits)
    else
      let places := k.toNat + 1
      if count ≤ places then digits ++ zeros (places - count) ++ layout.wholeMark.toList
      else digits.take places ++ '.' :: digits.drop places
  else
    match digits with
    | [] => []
    | first :: rest =>
        first :: ((if rest.isEmpty then [] else '.' :: rest) ++ layout.exponentText k)

/-- The text of a double. -/
def text (layout : Layout) (x : Float) : String :=
  match Binary.ofFloat? x with
  | some b =>
      let body := layout.decimalText (shortest b.significand b.exponent)
      String.ofList (if b.negative then '-' :: body else body)
  | none =>
      if x.isNaN then layout.undefined
      else if x < 0 then "-" ++ layout.infinity
      else layout.infinity

/-- The text of a double with one place after the point, rounded from its exact value. -/
def tenthsText (layout : Layout) (x : Float) : String :=
  match Binary.ofFloat? x with
  | some b =>
      let (num, den) := b.quotient
      let tenths := roundDiv (num * 10) den
      let body := toString (tenths / 10) ++ "." ++ toString (tenths % 10)
      if b.negative then "-" ++ body else body
  | none => layout.text x

end Layout

end Vigil.Number
