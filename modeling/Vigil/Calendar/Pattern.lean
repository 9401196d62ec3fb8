import Vigil.Calendar

/-!
# Moments by pattern

A pattern says how a moment is written: runs of certain letters stand for its parts, and any other
character for itself. Of several runs that fit at one place the longest counts.
-/

namespace Vigil.Calendar

/-- The hour on a clock of twelve hours. -/
def TimeOfDay.hourOfHalf (t : TimeOfDay) : Nat := (t.hour + 11) % 12 + 1

/-- An offset as `+0530`. -/
def plainOffsetText (minutes : Int) : String :=
  String.ofList ((offsetText minutes).toList.filter (· != ':'))

/-- What the runs of letters stand for, a longer run before any part of it. -/
def Moment.runs (m : Moment) : List (String × String) :=
  let d := m.date
  let t := m.time
  let offset := m.offset.getD 0
  [("YYYY", padded 4 d.year), ("YY", padded 2 (d.year % 100)),
   ("Q", toString ((d.month - 1) / 3 + 1)),
   ("MM", padded 2 d.month), ("M", toString d.month),
   ("DD", padded 2 d.day), ("D", toString d.day),
   ("HH", padded 2 t.hour), ("H", toString t.hour),
   ("hh", padded 2 t.hourOfHalf), ("h", toString t.hourOfHalf),
   ("mm", padded 2 t.minute), ("m", toString t.minute),
   ("ss", padded 2 t.second), ("s", toString t.second),
   ("SSSSSS", padded 6 t.microsecond), ("SSSSS", padded 5 (t.microsecond / 10)),
   ("SSSS", padded 4 (t.microsecond / 100)), ("SSS", padded 3 (t.microsecond / 1000)),
   ("SS", padded 2 (t.microsecond / 10000)), ("S", toString (t.microsecond / 100000)),
   ("A", if t.hour < 12 then "AM" else "PM"),
   ("ZZ", plainOffsetText offset), ("Z", offsetText offset)]

/-- The text of a pattern; the first `skip` characters belong to a run that was written. -/
def Moment.shownFrom (m : Moment) : Nat → List Char → List Char
  | _, [] => []
  | skip + 1, _ :: cs => m.shownFrom skip cs
  | 0, c :: cs =>
      match m.runs.find? fun run => run.1.toList.isPrefixOf (c :: cs) with
      | some (run, text) => text.toList ++ m.shownFrom (run.length - 1) cs
      | none => c :: m.shownFrom 0 cs

/-- The moment as a pattern says. -/
def Moment.shown (m : Moment) (pattern : String) : String :=
  String.ofList (m.shownFrom 0 pattern.toList)

end Vigil.Calendar
