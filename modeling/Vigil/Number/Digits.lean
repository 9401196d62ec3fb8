import Vigil.Defect
import Vigil.Number.Power

/-!
# Whole numbers in decimal digits

Whole numbers have any size, but it takes long to write a large one in decimal digits or to read it
back. So there is a limit to the digits of a number that is written or read. It stands between a
number and every text that shows it: a message, a line of the log, the text of a failure.
-/

namespace Vigil.Number

/-- The most decimal digits that a whole number is written or read with. -/
def digitLimit : Nat := 4300

/-- How many decimal digits a whole number has. -/
def digitCount (n : Int) : Nat := (Nat.toDigits 10 n.natAbs).length

/-- A whole number in decimal digits, unless it has too many of them. -/
def wholeText (n : Int) : Except Defect String :=
  if digitCount n ≤ digitLimit then .ok (toString n) else .error .unwritable

/-- The message about a number of too many digits. Other defects have none. -/
def limitMessage : Defect → String
  | .unwritable => limit ++ "; " ++ advice
  | .unreadable digits => limit ++ ": value has " ++ toString digits ++ " digits; " ++ advice
  | _ => ""
where
  limit : String :=
    "Exceeds the limit (" ++ toString digitLimit ++ " digits) for integer string conversion"
  advice : String := "use sys.set_int_max_str_digits() to increase the limit"

theorem digitCount_le_iff {n : Int} {digits : Nat} (hdigits : 0 < digits) :
    digitCount n ≤ digits ↔ n.natAbs < pow10 digits :=
  Nat.length_toDigits_le_iff (by decide) hdigits

theorem wholeText_of_lt {n : Int} (h : n.natAbs < pow10 digitLimit) :
    wholeText n = .ok (toString n) :=
  if_pos ((digitCount_le_iff (by decide)).mpr h)

theorem wholeText_of_le {n : Int} (h : pow10 digitLimit ≤ n.natAbs) :
    wholeText n = .error .unwritable :=
  if_neg fun hcount => Nat.not_lt.mpr h ((digitCount_le_iff (by decide)).mp hcount)

end Vigil.Number
