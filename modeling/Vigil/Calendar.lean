/-!
# Dates and times of day

A configuration file can hold a date, a time of day, or both with or without an offset from
universal time. A message shows them in their plain form when they stand alone, and in a form that
names their parts when they are quoted.
-/

namespace Vigil.Calendar

/-- A day of the calendar. -/
structure Date where
  year : Nat
  month : Nat
  day : Nat
  deriving DecidableEq, Repr, Inhabited

/-- A time of day, to the microsecond. -/
structure TimeOfDay where
  hour : Nat
  minute : Nat
  second : Nat
  microsecond : Nat
  deriving DecidableEq, Repr, Inhabited

/-- A day and a time, and the minutes by which the local time is ahead of universal time, if known.
-/
structure Moment where
  date : Date
  time : TimeOfDay
  offset : Option Int
  deriving DecidableEq, Repr, Inhabited

/-- Every fourth year is a leap year, except full centuries that four hundred does not divide. -/
def isLeapYear (year : Nat) : Bool :=
  year % 4 == 0 && (year % 100 != 0 || year % 400 == 0)

/-- The number of days of a month. -/
def daysInMonth (year month : Nat) : Nat :=
  if month = 2 then if isLeapYear year then 29 else 28
  else if month = 4 ∨ month = 6 ∨ month = 9 ∨ month = 11 then 30
  else 31

/-- The day exists. -/
def Date.isValid (d : Date) : Bool :=
  decide (1 ≤ d.year) && decide (1 ≤ d.month) && decide (d.month ≤ 12) &&
    decide (1 ≤ d.day) && decide (d.day ≤ daysInMonth d.year d.month)

/-- A number with zeros in front up to a width. -/
def padded (width n : Nat) : String :=
  let digits := toString n
  String.ofList (List.replicate (width - digits.length) '0') ++ digits

/-- A day as `1979-05-27`. -/
def Date.text (d : Date) : String :=
  padded 4 d.year ++ "-" ++ padded 2 d.month ++ "-" ++ padded 2 d.day

/-- A time of day as `07:32:00`, with six places of a second if any of them counts. -/
def TimeOfDay.text (t : TimeOfDay) : String :=
  padded 2 t.hour ++ ":" ++ padded 2 t.minute ++ ":" ++ padded 2 t.second ++
    (if t.microsecond = 0 then "" else "." ++ padded 6 t.microsecond)

/-- An offset as `+05:30`. -/
def offsetText (minutes : Int) : String :=
  (if minutes < 0 then "-" else "+") ++
    padded 2 (minutes.natAbs / 60) ++ ":" ++ padded 2 (minutes.natAbs % 60)

/-- A moment as `1979-05-27 07:32:00+00:00`. -/
def Moment.text (m : Moment) : String :=
  m.date.text ++ " " ++ m.time.text ++ (m.offset.map offsetText).getD ""

/-- The parts of a day, separated by commas. -/
def Date.parts (d : Date) : String :=
  toString d.year ++ ", " ++ toString d.month ++ ", " ++ toString d.day

/-- The parts of a time of day: seconds only if they or the microseconds count. -/
def TimeOfDay.parts (t : TimeOfDay) : String :=
  toString t.hour ++ ", " ++ toString t.minute ++
    (if t.second = 0 ∧ t.microsecond = 0 then ""
     else ", " ++ toString t.second ++
      (if t.microsecond = 0 then "" else ", " ++ toString t.microsecond))

/-- The part that names an offset. A negative one counts forward from a day before. -/
def offsetParts (minutes : Int) : String :=
  if minutes = 0 then ", tzinfo=datetime.timezone.utc"
  else
    let seconds : Int := minutes * 60
    let span :=
      if seconds < 0 then "days=-1, seconds=" ++ toString (seconds + 86400)
      else "seconds=" ++ toString seconds
    ", tzinfo=datetime.timezone(datetime.timedelta(" ++ span ++ "))"

/-- A day with its parts named. -/
def Date.quoted (d : Date) : String := "datetime.date(" ++ d.parts ++ ")"

/-- A time of day with its parts named. -/
def TimeOfDay.quoted (t : TimeOfDay) : String := "datetime.time(" ++ t.parts ++ ")"

/-- A moment with its parts named. -/
def Moment.quoted (m : Moment) : String :=
  "datetime.datetime(" ++ m.date.parts ++ ", " ++ m.time.parts ++
    (m.offset.map offsetParts).getD "" ++ ")"

end Vigil.Calendar
