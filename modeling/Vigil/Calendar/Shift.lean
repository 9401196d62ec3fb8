import Vigil.Calendar

/-!
# Counting days

The calendar repeats every four hundred years. Counting each year from the first of March puts the
day that only leap years have at the end, so that months and days follow from the number of a day by
division.
-/

namespace Vigil.Calendar

/-- The number of days before a day, counted from the first of March of the year zero. -/
def Date.number (d : Date) : Nat :=
  let (year, month) := if d.month ≤ 2 then (d.year - 1, d.month + 9) else (d.year, d.month - 3)
  365 * year + year / 4 - year / 100 + year / 400 + (153 * month + 2) / 5 + (d.day - 1)

/-- The day with a number. -/
def Date.ofNumber (n : Nat) : Date :=
  let era := n / 146097
  let dayOfEra := n % 146097
  let yearOfEra := (dayOfEra - dayOfEra / 1460 + dayOfEra / 36524 - dayOfEra / 146096) / 365
  let dayOfYear := dayOfEra - (365 * yearOfEra + yearOfEra / 4 - yearOfEra / 100)
  let month := (5 * dayOfYear + 2) / 153
  let day := dayOfYear - (153 * month + 2) / 5 + 1
  let year := yearOfEra + era * 400
  if month < 10 then ⟨year, month + 3, day⟩ else ⟨year + 1, month - 9, day⟩

/-- The microseconds of a second. -/
def microsecondsPerSecond : Nat := 1000000

/-- The microseconds of a day. -/
def microsecondsPerDay : Nat := 86400 * microsecondsPerSecond

/-- The time of day after some microseconds. -/
def TimeOfDay.ofMicroseconds (n : Nat) : TimeOfDay :=
  let seconds := n / microsecondsPerSecond
  ⟨seconds / 3600, seconds / 60 % 60, seconds % 60, n % microsecondsPerSecond⟩

/-- The microseconds before a time of day. -/
def TimeOfDay.microseconds (t : TimeOfDay) : Nat :=
  ((t.hour * 60 + t.minute) * 60 + t.second) * microsecondsPerSecond + t.microsecond

/-- The microseconds before a moment, counted from the first of March of the year zero. -/
def Moment.microseconds (m : Moment) : Nat :=
  m.date.number * microsecondsPerDay + m.time.microseconds

/-- The first day of the calendar: there is no year zero. -/
def firstDate : Date := ⟨1, 1, 1⟩

/-- The last day of the calendar: years have four digits. -/
def lastDate : Date := ⟨9999, 12, 31⟩

/-- The moment some microseconds later, or earlier if there are less than none of them; `none`
beyond the calendar. -/
def Moment.shift? (m : Moment) (microseconds : Int) : Option Moment :=
  let total : Int := m.microseconds + microseconds
  if ((firstDate.number * microsecondsPerDay : Nat) : Int) ≤ total ∧
      total < (((lastDate.number + 1) * microsecondsPerDay : Nat) : Int) then
    let total := total.toNat
    some { m with
      date := Date.ofNumber (total / microsecondsPerDay)
      time := .ofMicroseconds (total % microsecondsPerDay) }
  else none

end Vigil.Calendar
