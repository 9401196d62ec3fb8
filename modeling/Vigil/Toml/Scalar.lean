import Vigil.Number.Reading
import Vigil.Value

/-!
# Numbers, dates and words in a configuration file

A date is tried before a time of day, and a time of day before a number, because all three begin
with digits. What follows the longest match is left for the reader of the line.
-/

namespace Vigil.Toml

open Number (digit? digitsValue)
open Calendar (Date TimeOfDay Moment)

/-- Why a file cannot be read. -/
inductive ReadError where
  /-- The bytes are no text. -/
  | notText
  /-- The text breaks the rules of the format. -/
  | malformed
  /-- A number obeys the rules and is not read all the same. -/
  | defect (d : Defect)
  deriving DecidableEq, Repr, Inhabited

/-- Where a part of a file has to be, none breaks the rules of the format. -/
def required {α : Type} (found : Option α) : Except ReadError α :=
  match found with
  | some a => .ok a
  | none => .error .malformed

/-- Exactly two digits. -/
def twoDigits : List Char → Option (Nat × List Char)
  | a :: b :: cs => do return ((← digit? a) * 10 + (← digit? b), cs)
  | _ => none

def expect (c : Char) : List Char → Option (List Char)
  | d :: cs => if d = c then some cs else none
  | [] => none

/-- The digits after the point of a second; only the first six count. -/
def microseconds (digits : List Char) : Nat :=
  let counted := digits.take 6
  digitsValue counted * Number.pow10 (6 - counted.length)

def timeOfDay (cs : List Char) : Option (TimeOfDay × List Char) := do
  let (hour, cs) ← twoDigits cs
  if 23 < hour then none
  let (minute, cs) ← twoDigits (← expect ':' cs)
  if 59 < minute then none
  let (second, cs) ← twoDigits (← expect ':' cs)
  if 59 < second then none
  match cs with
  | '.' :: rest =>
      let digits := rest.takeWhile fun c => (digit? c).isSome
      if digits.isEmpty then return (⟨hour, minute, second, 0⟩, cs)
      else return (⟨hour, minute, second, microseconds digits⟩, rest.drop digits.length)
  | _ => return (⟨hour, minute, second, 0⟩, cs)

/-- A day, whose month and day are at least possible numbers. -/
def day (cs : List Char) : Option (Date × List Char) := do
  let (century, cs) ← twoDigits cs
  let (year, cs) ← twoDigits cs
  let (month, cs) ← twoDigits (← expect '-' cs)
  let (day, cs) ← twoDigits (← expect '-' cs)
  if 1 ≤ month ∧ month ≤ 12 ∧ 1 ≤ day ∧ day ≤ 31 then
    return (⟨century * 100 + year, month, day⟩, cs)
  else none

/-- The offset of a moment, in minutes. -/
def offset : List Char → Option (Int × List Char)
  | 'Z' :: cs => some (0, cs)
  | 'z' :: cs => some (0, cs)
  | sign :: cs =>
      if sign = '+' ∨ sign = '-' then do
        let (hours, cs) ← twoDigits cs
        if 23 < hours then none
        let (minutes, cs) ← twoDigits (← expect ':' cs)
        if 59 < minutes then none
        let total : Int := hours * 60 + minutes
        return (if sign = '-' then -total else total, cs)
      else none
  | [] => none

/-- A date with or without a time, or a time of day. The outer option says whether one begins here;
the inner one is empty for a day that does not exist. -/
def calendarValue? (cs : List Char) : Option (Option (Value × List Char)) :=
  match day cs with
  | some (date, rest) =>
      let found :=
        match rest with
        | c :: rest' =>
            if c = 'T' ∨ c = 't' ∨ c = ' ' then
              match timeOfDay rest' with
              | some (time, rest'') =>
                  match offset rest'' with
                  | some (minutes, rest''') => (.moment ⟨date, time, some minutes⟩, rest''')
                  | none => (.moment ⟨date, time, none⟩, rest'')
              | none => (.date date, rest)
            else (.date date, rest)
        | [] => (.date date, rest)
      some (if date.isValid then some found else none)
  | none => (timeOfDay cs).map fun (time, rest) => some (.time time, rest)

/-- Digits after a first one; an underscore may stand between two of them. -/
def moreDigits (isDigit : Char → Bool) : List Char → List Char × List Char
  | '_' :: c :: cs =>
      if isDigit c then
        let (digits, rest) := moreDigits isDigit cs
        (c :: digits, rest)
      else ([], '_' :: c :: cs)
  | c :: cs =>
      if isDigit c then
        let (digits, rest) := moreDigits isDigit cs
        (c :: digits, rest)
      else ([], c :: cs)
  | [] => ([], [])

def digitRun (isDigit : Char → Bool) : List Char → Option (List Char × List Char)
  | c :: cs =>
      if isDigit c then
        let (digits, rest) := moreDigits isDigit cs
        some (c :: digits, rest)
      else none
  | [] => none

/-- A digit of a base up to sixteen. -/
def baseDigit? (base : Nat) (c : Char) : Option Nat :=
  let value :=
    if '0' ≤ c ∧ c ≤ '9' then some (c.toNat - '0'.toNat)
    else if 'a' ≤ c ∧ c ≤ 'f' then some (c.toNat - 'a'.toNat + 10)
    else if 'A' ≤ c ∧ c ≤ 'F' then some (c.toNat - 'A'.toNat + 10)
    else none
  value.filter (· < base)

/-- A whole number in a base that its first two characters name. -/
def basedNumber : List Char → Option (Value × List Char)
  | '0' :: mark :: cs => do
      let base ←
        match mark with
        | 'x' => some 16
        | 'o' => some 8
        | 'b' => some 2
        | _ => none
      let (digits, rest) ← digitRun (fun c => (baseDigit? base c).isSome) cs
      let n := digits.foldl (fun acc c => acc * base + (baseDigit? base c).getD 0) 0
      return (.whole n, rest)
  | _ => none

/-- A decimal number, whole or with places or an exponent. A whole part of several digits does not
begin with zero. Only a whole number can have too many digits. -/
def decimalNumber (cs : List Char) : Option (Except Defect Value × List Char) := do
  let isDigit (c : Char) : Bool := (digit? c).isSome
  let (sign, cs) :=
    match cs with
    | '+' :: rest => (['+'], rest)
    | '-' :: rest => (['-'], rest)
    | _ => ([], cs)
  let (whole, cs) ←
    match cs with
    | '0' :: rest => some (['0'], rest)
    | _ => digitRun isDigit cs
  let (places, cs) :=
    match cs with
    | '.' :: rest =>
        match digitRun isDigit rest with
        | some (digits, rest') => ('.' :: digits, rest')
        | none => ([], cs)
    | _ => ([], cs)
  let (power, cs) :=
    match cs with
    | e :: rest =>
        if e = 'e' ∨ e = 'E' then
          let (powerSign, rest') :=
            match rest with
            | '+' :: r => (['+'], r)
            | '-' :: r => (['-'], r)
            | _ => ([], rest)
          match digitRun isDigit rest' with
          | some (digits, rest'') => ('e' :: (powerSign ++ digits), rest'')
          | none => ([], cs)
        else ([], cs)
    | [] => ([], cs)
  if places.isEmpty && power.isEmpty then
    return ((← Number.readInt? (sign ++ whole)).map .whole, cs)
  else
    return (.ok (.real (← Number.readReal? (sign ++ whole ++ places ++ power))), cs)

/-- A word that stands for a value. -/
def wordValue (cs : List Char) : Option (Value × List Char) :=
  let words : List (String × Value) :=
    [("inf", .real (1.0 / 0.0)), ("+inf", .real (1.0 / 0.0)), ("-inf", .real (-1.0 / 0.0)),
     ("nan", .real (0.0 / 0.0)), ("+nan", .real (0.0 / 0.0)), ("-nan", .real (0.0 / 0.0))]
  words.findSome? fun (word, value) =>
    if word.toList.isPrefixOf cs then some (value, cs.drop word.length) else none

def flagValue (cs : List Char) : Option (Value × List Char) :=
  if "true".toList.isPrefixOf cs then some (.flag true, cs.drop 4)
  else if "false".toList.isPrefixOf cs then some (.flag false, cs.drop 5)
  else none

/-- A value that is neither a text, nor a list, nor a table. -/
def scalar (cs : List Char) : Except ReadError (Value × List Char) :=
  match flagValue cs with
  | some found => .ok found
  | none =>
      match calendarValue? cs with
      | some found => required found
      | none =>
          match basedNumber cs with
          | some found => .ok found
          | none =>
              match decimalNumber cs with
              | some (.ok v, rest) => .ok (v, rest)
              | some (.error d, _) => .error (.defect d)
              | none => required (wordValue cs)

end Vigil.Toml
