import Vigil.Calendar.Pattern
import Vigil.Text.Digit

/-!
# Names of log files

The name of a log file may have fields in braces, which are filled in when the file is created. The
only field is `time`; a pattern after a colon says how it is written, and may have fields itself. A
brace that is meant as such is doubled.
-/

namespace Vigil.Log.FileName

open Calendar (Moment)
open Text (isDecimal)

/-- What is wrong with a name. -/
inductive Fault where
  /-- Braces or fields are not formed as they should be. -/
  | malformed
  /-- There is no field of this name. -/
  | unknownField
  /-- The field has no part of this name. -/
  | missingPart
  /-- The field has no numbered parts. -/
  | wrongKind
  deriving DecidableEq, Repr, Inhabited

/-- A piece of a name. -/
inductive Piece where
  | char (c : Char)
  | field (name pattern : List Char)
  deriving DecidableEq, Repr, Inhabited

/-- Splits off the name of a field, up to the character that ends it. Between square brackets no
character does. -/
def fieldName? (bracketed : Bool) : List Char → Option (List Char × List Char)
  | [] => none
  | c :: cs =>
      let go (bracketed : Bool) : Option (List Char × List Char) :=
        (fieldName? bracketed cs).map fun (name, rest) => (c :: name, rest)
      if bracketed then go (c != ']')
      else if c == '\x7b' then none
      else if c == '\x7d' || c == ':' || c == '!' then some ([], c :: cs)
      else go (c == '[')

/-- Splits off a pattern with everything up to the brace that closes its field; `depth` counts the
fields inside that are open. -/
def pattern? (depth : Nat) : List Char → Option (List Char × List Char)
  | [] => none
  | c :: cs =>
      let go (depth : Nat) : Option (List Char × List Char) :=
        (pattern? depth cs).map fun (pattern, rest) => (c :: pattern, rest)
      if c == '\x7b' then go (depth + 1)
      else if c == '\x7d' then if depth = 0 then some ([], cs) else go (depth - 1)
      else go depth

/-- Splits off a field after its opening brace. A letter after an exclamation mark may ask for one
of the forms of a value, all of which are its text. -/
def field? (cs : List Char) : Option (Piece × List Char) := do
  let (name, rest) ← fieldName? false cs
  match rest with
  | '\x7d' :: rest => return (.field name [], rest)
  | ':' :: rest =>
      let (pattern, rest) ← pattern? 0 rest
      return (.field name pattern, rest)
  | '!' :: form :: '\x7d' :: rest =>
      if ['a', 'r', 's'].contains form then return (.field name [], rest) else none
  | '!' :: form :: ':' :: rest =>
      let (pattern, rest) ← pattern? 0 rest
      if ['a', 'r', 's'].contains form then return (.field name pattern, rest) else none
  | _ => none

/-- The pieces of a name; `none` if its braces do not match. -/
def pieces? : Nat → List Char → Option (List Piece)
  | 0, _ => none
  | _, [] => some []
  | fuel + 1, c :: cs =>
      if c == '\x7b' then
        match cs with
        | '\x7b' :: rest => (pieces? fuel rest).map (.char c :: ·)
        | _ => do
            let (piece, rest) ← field? cs
            return piece :: (← pieces? fuel rest)
      else if c == '\x7d' then
        match cs with
        | '\x7d' :: rest => (pieces? fuel rest).map (.char c :: ·)
        | _ => none
      else (pieces? fuel cs).map (.char c :: ·)

/-- The pieces of a name. -/
def pieces (cs : List Char) : Except Fault (List Piece) :=
  match pieces? (cs.length + 1) cs with
  | some pieces => .ok pieces
  | none => .error .malformed

/-- The field of a name is the time. A number in place of a name counts fields that do not exist. -/
def checkField (name : List Char) : Except Fault Unit :=
  let isPlain (c : Char) : Bool := c != '.' && c != '['
  let first := name.takeWhile isPlain
  if first.all isDecimal then .error .malformed
  else if first != "time".toList then .error .unknownField
  else
    match name.dropWhile isPlain with
    | [] => .ok ()
    | '.' :: part =>
        if (part.takeWhile isPlain).isEmpty then .error .malformed else .error .missingPart
    | _ :: part =>
        if part.head? == some ']' || !part.contains ']' then .error .malformed
        else .error .wrongKind

/-- How the time is written when there is no pattern. -/
def plainPattern : String := "YYYY-MM-DD_HH-mm-ss_SSSSSS"

/-- The time as a pattern says. -/
def timeText (m : Moment) (pattern : List Char) : List Char :=
  (m.shown (if pattern.isEmpty then plainPattern else String.ofList pattern)).toList

/-- Fills in the fields of a text; patterns may have fields down to a depth. -/
def fill (m : Moment) : Nat → List Char → Except Fault (List Char)
  | 0, _ => .error .malformed
  | depth + 1, cs => do
      let parts ← (← pieces cs).mapM fun piece =>
        match piece with
        | .char c => .ok [c]
        | .field name pattern => do
            checkField name
            let pattern ←
              if pattern.contains '\x7b' then fill m depth pattern else .ok pattern
            return timeText m pattern
      return parts.flatten

/-- The name of the file that is created at a moment. Fields in patterns have no fields in their own
patterns. -/
def expand (m : Moment) (name : String) : Except Fault String :=
  (fill m 2 name.toList).map String.ofList

/-- The braces of a name match. -/
def check (name : String) : Except Fault Unit := (pieces name.toList).map fun _ => ()

end Vigil.Log.FileName
