import Vigil.Toml.Statement

/-!
# Configuration files

A file is read line by line into one table. Line ends of two characters count as one.
-/

namespace Vigil.Toml

/-- A file while it is read. -/
structure Draft where
  entries : Entries
  /-- The table that assignments go to. -/
  header : List String
  /-- How many headers came before. -/
  section_ : Nat

namespace Draft

/-- A file of which nothing was read. -/
def empty : Draft := ⟨[], [], 0⟩

/-- Adds what a line says. -/
def add (d : Draft) : Statement → Option Draft
  | .header path => do
      let last ← path.getLast?
      let entries ← d.entries.within (Entries.declare last) path.dropLast
      return ⟨entries, path, d.section_ + 1⟩
  | .listHeader path => do
      let last ← path.getLast?
      let entries ← d.entries.within (Entries.extend last) path.dropLast
      return ⟨entries, path, d.section_ + 1⟩
  | .assignment path value => do
      let entries ← d.entries.within (Entries.assign d.section_ value path) d.header
      return { d with entries := entries }

end Draft

/-- Reads all lines, one after the other, and adds what each of them says. Each line takes at least
one character. -/
def lines : Nat → Draft → List Char → Except ReadError Draft
  | 0, _, _ => .error .malformed
  | fuel + 1, d, cs => do
      let (found, rest) ← statement (cs.length + 1) (skipBlanks cs)
      let d ← found.elim (.ok d) fun line => required (d.add line)
      match ← required (skipComment (skipBlanks rest)) with
      | [] => return d
      | '\n' :: rest => lines fuel d rest
      | _ => throw .malformed

/-- Takes a line end of two characters for one. -/
def normalizeBreaks : List Char → List Char
  | '\r' :: '\n' :: cs => '\n' :: normalizeBreaks cs
  | c :: cs => c :: normalizeBreaks cs
  | [] => []

/-- The table of a text. -/
def ofText (text : String) : Except ReadError Fields := do
  let cs := normalizeBreaks text.toList
  let draft ← lines (cs.length + 1) .empty cs
  return Node.fieldsOf draft.entries

/-- The table of a file. -/
def ofBytes (bytes : ByteArray) : Except ReadError Fields :=
  match String.fromUTF8? bytes with
  | some text => ofText text
  | none => .error .notText

end Vigil.Toml
