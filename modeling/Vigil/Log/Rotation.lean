import Vigil.Calendar.Stamp
import Vigil.Number.Reading
import Vigil.Text.Blank
import Vigil.Text.Digit

/-!
# When a log file is full

The point at which a new log file is begun is described in words: a size, a span, a frequency, or a
day of the week and a time of day. Here it is only decided which descriptions mean something. Blanks
and digits of any script count, and case does not matter.
-/

namespace Vigil.Log.Rotation

open Number (digit? digitsValue readReal?)
open Text (decimal? isBlank isDecimal plainDigit trimmed)

inductive Fault where
  | meaningless
  /-- The span has more days than a calendar can count. -/
  | tooLong
  deriving DecidableEq, Repr, Inhabited

/-! ### Letters -/

/-- The plain letter that a character is when case does not matter. Besides the capitals a few
characters elsewhere are such letters. -/
def foldCase (c : Char) : Char :=
  if c = '\u0130' ∨ c = '\u0131' then 'i'
  else if c = '\u017f' then 's'
  else if c = '\u212a' then 'k'
  else c.toLower

/-- The lower case of a character, as far as it is a plain letter. -/
def lowerCase (c : Char) : Char := if c = '\u212a' then 'k' else c.toLower

/-! ### Sizes and spans -/

def isNumberChar (c : Char) : Bool := c == 'e' || c == '+' || c == '-' || c == '.' || isDecimal c

/-- A number, and what follows it after blanks. -/
def numberAndRest (cs : List Char) : List Char × List Char :=
  (cs.takeWhile isNumberChar, (cs.dropWhile isNumberChar).dropWhile isBlank)

def readNumber? (cs : List Char) : Option Float := readReal? (cs.map plainDigit)

/-- The unit of a size: an optional magnitude, an optional mark of powers of two, and `b`. -/
def isSizeUnit (cs : List Char) : Bool :=
  let cs :=
    match cs with
    | c :: rest => if "kmgtpezy".toList.contains c then rest else cs
    | [] => cs
  cs == ['b'] || cs == ['i', 'b']

/-- A description that reads like a size such as `20 mb`, and whether its number means something. -/
def size? (cs : List Char) : Option Bool :=
  let (number, rest) := numberAndRest cs
  if !number.isEmpty && isSizeUnit rest then some (readNumber? number).isSome else none

/-- The units of spans in seconds. -/
def spanUnits : List (List String × Float) :=
  [(["y", "year", "years"], 31536000.0), (["month", "months"], 2628000.0),
   (["w", "week", "weeks"], 604800.0), (["d", "day", "days"], 86400.0),
   (["h", "hour", "hours"], 3600.0), (["min", "mins", "minute", "minutes"], 60.0),
   (["s", "sec", "secs", "second", "seconds"], 1.0), (["ms", "millisecond", "milliseconds"], 0.001),
   (["us", "microsecond", "microseconds"], 0.000001)]

def unit? (name : List Char) : Option Float :=
  (spanUnits.find? fun unit => unit.1.contains (String.ofList name)).map Prod.snd

/-- The seconds of a span, one or more numbers with units, on top of those before it. -/
def secondsFrom (before : Float) : Nat → List Char → Option Float
  | 0, _ => none
  | fuel + 1, cs => do
      let (number, rest) := numberAndRest cs
      let value ← readNumber? number
      let unit ← unit? (rest.takeWhile Char.isLower)
      let seconds := before + value * unit
      match (rest.dropWhile Char.isLower).dropWhile fun c => isBlank c || c == ',' with
      | [] => some seconds
      | rest => secondsFrom seconds fuel rest

/-- The number of days beyond which no span goes in either direction. -/
def greatestDays : Nat := 999999999

/-- A span of some seconds can be counted. -/
def checkSeconds (seconds : Float) : Except Fault Unit :=
  match Calendar.microsecondsOf? seconds with
  | some n =>
      let days := n.fdiv Calendar.microsecondsPerDay
      if days.natAbs ≤ greatestDays then .ok () else .error .tooLong
  | none => if seconds.isNaN then .error .meaningless else .error .tooLong

/-- The span means something. -/
def checkSpan (cs : List Char) : Except Fault Unit :=
  match secondsFrom 0.0 (cs.length + 1) cs with
  | some seconds => checkSeconds seconds
  | none => .error .meaningless

/-- A number with a word after it reads like a span. -/
def looksLikeSpan (cs : List Char) : Bool :=
  let (number, rest) := numberAndRest cs
  !number.isEmpty && (rest.head?.map Char.isLower).getD false

/-! ### Frequencies, days and times of day -/

def frequencies : List String := ["hourly", "daily", "weekly", "monthly", "yearly"]

def weekdays : List String :=
  ["monday", "tuesday", "wednesday", "thursday", "friday", "saturday", "sunday"]

/-- A day of the week by its name, or by `w` and its number. -/
def isDay (cs : List Char) : Bool :=
  weekdays.contains (String.ofList cs) ||
    match cs with
    | 'w' :: digits =>
        !digits.isEmpty && digits.all isDecimal && decide (digitsValue (digits.map plainDigit) < 7)
    | _ => false

/-- A number of one or two digits up to a bound. The second digit may be of any script, and so may
the only one, but a second digit that the bound limits is a plain one. -/
def isPart (greatest : Nat) : List Char → Bool
  | [c] => isDecimal c
  | [c, d] =>
      match digit? c, decimal? d with
      | some tens, some ones =>
          decide (10 * tens + 9 ≤ greatest) ||
            ((digit? d).isSome && decide (10 * tens + ones ≤ greatest))
      | _, _ => false
  | _ => false

/-- An hour on a clock of twelve hours, in plain digits. -/
def isHourOfHalf (cs : List Char) : Bool :=
  decide (0 < cs.length) && decide (cs.length ≤ 2) && cs.all Char.isDigit &&
    decide (1 ≤ digitsValue cs) && decide (digitsValue cs ≤ 12)

def isSecond (cs : List Char) : Bool :=
  isPart 59 (cs.takeWhile (· != '.')) &&
    match cs.dropWhile (· != '.') with
    | [] => true
    | _ :: places => !places.isEmpty && decide (places.length ≤ 6) && places.all Char.isDigit

def colonParts (cs : List Char) : List (List Char) :=
  cs.foldr
    (fun c parts =>
      if c == ':' then [] :: parts
      else
        match parts with
        | part :: rest => (c :: part) :: rest
        | [] => [[c]])
    [[]]

/-- A time of day: on a clock of twenty-four hours to any precision, or on one of twelve hours to
the hour or to the second. -/
def isTime (cs : List Char) : Bool :=
  let isClock (c : Char) : Bool := isDecimal c || c == '.' || c == ':'
  let clock := cs.takeWhile isClock
  let rest := cs.dropWhile isClock
  let half := rest.dropWhile isBlank
  if rest.isEmpty then
    match colonParts clock with
    | [h] => isPart 23 h
    | [h, m] => isPart 23 h && isPart 59 m
    | [h, m, s] => isPart 23 h && isPart 59 m && isSecond s
    | _ => false
  else if half != rest && (half == ['a', 'm'] || half == ['p', 'm']) then
    match colonParts clock with
    | [h] => isHourOfHalf h
    | [h, m, s] => isHourOfHalf h && isPart 59 m && isSecond s
    | _ => false
  else false

/-- Splits a description at the first word `at`; `before` is what was passed over, the last
character first. -/
def splitAtWord (before : List Char) : List Char → Option (List Char × List Char)
  | a :: 'a' :: 't' :: b :: cs =>
      if isBlank a && isBlank b then
        some ((before.dropWhile isBlank).reverse, cs.dropWhile isBlank)
      else splitAtWord (a :: before) ('a' :: 't' :: b :: cs)
  | c :: cs => splitAtWord (c :: before) cs
  | [] => none

/-- A day of the week, a time of day, or both. The time after a day stands on one line. -/
def isDayOrTime (cs : List Char) : Bool :=
  match splitAtWord [] cs with
  | some (day, time) => isDay day && isTime time && !time.contains '\n'
  | none => isDay cs || isTime cs

/-! ### Descriptions -/

/-- The description of a span means something. -/
def checkSpanText (s : String) : Except Fault Unit := checkSpan ((trimmed s.toList).map foldCase)

/-- The description means something. -/
def check (s : String) : Except Fault Unit :=
  let cs := trimmed s.toList
  let folded := cs.map foldCase
  match size? folded with
  | some valid => if valid then .ok () else .error .meaningless
  | none =>
      if looksLikeSpan folded then checkSpan folded
      else
        let lower := cs.map lowerCase
        if frequencies.contains (String.ofList lower) || isDayOrTime lower then .ok ()
        else .error .meaningless

end Vigil.Log.Rotation
