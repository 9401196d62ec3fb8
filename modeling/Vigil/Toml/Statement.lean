import Vigil.Toml.Nest
import Vigil.Toml.Scalar
import Vigil.Toml.Text

/-!
# The lines of a configuration file

A line holds a header, a double header or an assignment, or nothing. Lists and tables may be written
out as values, and their readers call each other. A list or table takes two calls and stands between
two characters, and every further item takes one call and a comma, so one call more than there are
characters is always enough.
-/

namespace Vigil.Toml

/-- What a line says. -/
inductive Statement where
  | header (path : List String)
  | listHeader (path : List String)
  | assignment (path : List String) (value : Value)

/-- The characters of a key that need no quotation marks. -/
def isBare (c : Char) : Bool :=
  (decide ('a' ≤ c) && decide (c ≤ 'z')) || (decide ('A' ≤ c) && decide (c ≤ 'Z')) ||
    (decide ('0' ≤ c) && decide (c ≤ '9')) || c == '-' || c == '_'

/-- One part of a dotted key. -/
def keyPart (cs : List Char) : Option (String × List Char) := do
  let (part, rest) ←
    match cs with
    | '"' :: rest => quotedLine rest
    | '\'' :: rest => plainLine rest
    | _ =>
        let bare := cs.takeWhile isBare
        if bare.isEmpty then none else some (bare, cs.dropWhile isBare)
  return (String.ofList part, rest)

/-- The parts of a dotted key after the first one. -/
def keyRest : Nat → List Char → Option (List String × List Char)
  | 0, _ => none
  | fuel + 1, cs =>
      match skipBlanks cs with
      | '.' :: rest => do
          let (part, rest) ← keyPart (skipBlanks rest)
          let (parts, rest) ← keyRest fuel rest
          return (part :: parts, rest)
      | rest => some ([], rest)

/-- A dotted key and the blanks after it. -/
def key (cs : List Char) : Option (List String × List Char) := do
  let (part, rest) ← keyPart cs
  let (parts, rest) ← keyRest (rest.length + 1) rest
  return (part :: parts, rest)

mutual

/-- A value. -/
def value : Nat → List Char → Except ReadError (Value × List Char)
  | 0, _ => .error .malformed
  | fuel + 1, cs =>
      match text? cs with
      | some found => do
          let (read, rest) ← required found
          return (.text (String.ofList read), rest)
      | none =>
          match cs with
          | '[' :: rest => do
              match ← required (skipFiller fuel rest) with
              | ']' :: rest => return (.list [], rest)
              | rest =>
                  let (items, rest) ← listItems fuel rest
                  return (.list items, rest)
          | '\x7b' :: rest => do
              match skipBlanks rest with
              | '\x7d' :: rest => return (.table [], rest)
              | rest =>
                  let (entries, rest) ← inlineItems fuel [] rest
                  return (.table (Node.fieldsOf entries), rest)
          | _ => scalar cs

/-- The items of a list up to its end. A comma may stand after the last one. -/
def listItems : Nat → List Char → Except ReadError (List Value × List Char)
  | 0, _ => .error .malformed
  | fuel + 1, cs => do
      let (item, rest) ← value fuel cs
      match ← required (skipFiller fuel rest) with
      | ']' :: rest => return ([item], rest)
      | ',' :: rest =>
          match ← required (skipFiller fuel rest) with
          | ']' :: rest => return ([item], rest)
          | rest =>
              let (items, rest) ← listItems fuel rest
              return (item :: items, rest)
      | _ => throw .malformed

/-- The entries of a written-out table up to its end, after those that were read. -/
def inlineItems : Nat → Entries → List Char → Except ReadError (Entries × List Char)
  | 0, _, _ => .error .malformed
  | fuel + 1, entries, cs => do
      let (path, rest) ← required (key cs)
      let rest ← required (expect '=' rest)
      let (item, rest) ← value fuel (skipBlanks rest)
      let entries ← required (Entries.assign 0 item path entries)
      match skipBlanks rest with
      | '\x7d' :: rest => return (entries, rest)
      | ',' :: rest => inlineItems fuel entries (skipBlanks rest)
      | _ => throw .malformed

end

/-- What a line says and the characters after it, up to a comment or the end of the line. A line
that says nothing gives `none` as its statement. -/
def statement (fuel : Nat) (cs : List Char) : Except ReadError (Option Statement × List Char) :=
  match cs with
  | [] => .ok (none, [])
  | '\n' :: _ => .ok (none, cs)
  | '#' :: _ => .ok (none, cs)
  | '[' :: '[' :: rest => do
      let (path, rest) ← required (key (skipBlanks rest))
      let rest ← required (expect ']' rest)
      let rest ← required (expect ']' rest)
      return (some (.listHeader path), rest)
  | '[' :: rest => do
      let (path, rest) ← required (key (skipBlanks rest))
      let rest ← required (expect ']' rest)
      return (some (.header path), rest)
  | _ => do
      let (path, rest) ← required (key cs)
      let rest ← required (expect '=' rest)
      let (item, rest) ← value fuel (skipBlanks rest)
      return (some (.assignment path item), rest)

end Vigil.Toml
