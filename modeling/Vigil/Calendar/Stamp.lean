import Vigil.Calendar.Shift
import Vigil.Number.Binary
import Vigil.Number.Nearest

/-!
# Instants on the calendar

A clock counts seconds in doubles, and the calendar counts whole microseconds. An instant that is
written down as a moment is therefore rounded, and reading the moment back gives the seconds that
the microseconds stand for and not the ones that the clock showed.
-/

namespace Vigil.Calendar

open Number (Binary nearest? nearestWord? roundDiv)

/-- The moment at which clocks start. -/
def firstMoment : Moment := ⟨⟨2020, 1, 2⟩, ⟨3, 4, 5, 0⟩, some 0⟩

/-- The microseconds of the fraction `num / den` of a second. Their number is formed as a double
first, and that double is rounded to the nearest whole number. -/
def fractionMicroseconds (num den : Nat) : Nat :=
  match (nearestWord? (num * microsecondsPerSecond) den).bind Binary.ofWord? with
  | some product => roundDiv product.quotient.1 product.quotient.2
  | none => 0

/-- A number of seconds in whole microseconds; `none` for an infinite or undefined number. Whole
seconds are counted exactly. -/
def microsecondsOf? (seconds : Float) : Option Int :=
  (Binary.ofFloat? seconds).map fun b =>
    let (num, den) := b.quotient
    let total : Int :=
      (num / den * microsecondsPerSecond + fractionMicroseconds (num % den) den : Nat)
    if b.negative then -total else total

/-- The double nearest to a number of microseconds in seconds. -/
def secondsOf? (microseconds : Int) : Option Float :=
  nearest? (decide (microseconds < 0)) microseconds.natAbs microsecondsPerSecond

/-- The moment that a clock stands for; `none` beyond the calendar. -/
def momentAt? (seconds : Float) : Option Moment :=
  (microsecondsOf? seconds).bind firstMoment.shift?

/-- An instant as its moment gives it back; `none` beyond the calendar. -/
def stamp? (seconds : Float) : Option Float := do
  let microseconds ← microsecondsOf? seconds
  let _ ← firstMoment.shift? microseconds
  secondsOf? microseconds

end Vigil.Calendar
