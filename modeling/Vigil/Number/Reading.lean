import Vigil.Number.Digits
import Vigil.Number.Nearest
import Vigil.Number.Shortest

/-!
# Reading a decimal number

The digits and the exponent are taken exactly and rounded once. A number beyond the largest double
reads as an infinity, and one too small for the least double as zero.
-/

namespace Vigil.Number

/-- A decimal digit. -/
def digit? (c : Char) : Option Nat :=
  if '0' ≤ c ∧ c ≤ '9' then some (c.toNat - '0'.toNat) else none

/-- The value of a run of decimal digits. -/
def digitsValue (cs : List Char) : Nat :=
  cs.foldl (fun acc c => acc * 10 + (digit? c).getD 0) 0

/-- The double nearest to `± digits * 10 ^ exponent`. Exponents far outside the range of doubles are
decided without forming the power. -/
def ofDecimal (negative : Bool) (d : Decimal) : Float :=
  let signed (x : Float) : Float := if negative then -x else x
  let leading : Int := d.exponent + (toString d.digits).length - 1
  if d.digits = 0 then signed 0.0
  else if 400 < leading then signed (1.0 / 0.0)
  else if leading < -400 then signed 0.0
  else
    let num := d.digits * pow10 d.exponent.toNat
    let den := pow10 (-d.exponent).toNat
    signed ((nearest? false num den).getD (1.0 / 0.0))

/-- A sign, if one leads, and the rest. -/
def splitSign : List Char → Bool × List Char
  | '-' :: cs => (true, cs)
  | '+' :: cs => (false, cs)
  | cs => (false, cs)

/-- Reads `12`, `12.5`, `.5`, `1e-7` and the like, with an optional sign, and the words for an
infinity and for an undefined number. -/
def readReal? (cs : List Char) : Option Float :=
  let (negative, cs) := splitSign cs
  if cs = "inf".toList then some (if negative then -1.0 / 0.0 else 1.0 / 0.0)
  else if cs = "nan".toList then some (0.0 / 0.0)
  else
    let isDigit (c : Char) : Bool := (digit? c).isSome
    let whole := cs.takeWhile isDigit
    let cs := cs.dropWhile isDigit
    let (places, cs) :=
      match cs with
      | '.' :: rest => (rest.takeWhile isDigit, rest.dropWhile isDigit)
      | _ => ([], cs)
    if whole.isEmpty && places.isEmpty then none
    else
      let digits := digitsValue (whole ++ places)
      let shift : Int := -(places.length : Int)
      match cs with
      | [] => some (ofDecimal negative ⟨digits, shift⟩)
      | e :: rest =>
          if e = 'e' ∨ e = 'E' then
            let (down, power) := splitSign rest
            if power.isEmpty || !power.all isDigit then none
            else
              let k : Int := digitsValue power
              some (ofDecimal negative ⟨digits, shift + if down then -k else k⟩)
          else none

/-- Reads a whole number with an optional sign; `none` if this is no whole number. One of too many
digits is recognised and turned down. -/
def readInt? (cs : List Char) : Option (Except Defect Int) :=
  let (negative, cs) := splitSign cs
  if cs.isEmpty || !cs.all (fun c => (digit? c).isSome) then none
  else if cs.length ≤ digitLimit then
    let n : Int := digitsValue cs
    some (.ok (if negative then -n else n))
  else some (.error (.unreadable cs.length))

end Vigil.Number
