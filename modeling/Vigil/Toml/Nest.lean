import Vigil.Value

/-!
# Tables under construction

A file builds its tables piece by piece: a header opens a table, a dotted key opens tables on its
way, and a double header adds a table to a list. Each table remembers how it came about, because
that decides which later lines may still add to it. A list or table that was written out as a value
is complete.
-/

namespace Vigil.Toml

/-- How a table came about. -/
inductive Origin where
  /-- On the way to the table of a header. -/
  | implied
  /-- By a header of its own. -/
  | declared
  /-- On the way of a dotted key in a section. -/
  | dotted (section_ : Nat)
  deriving DecidableEq

/-- A part of a file under construction. -/
inductive Node where
  | leaf (v : Value)
  | table (origin : Origin) (entries : List (String × Node))
  /-- A list of tables of which the last one can still grow. -/
  | tables (complete : List (List (String × Node))) (current : List (String × Node))

/-- The entries of a table under construction, in order. -/
abbrev Entries := List (String × Node)

namespace Node

mutual

/-- What a part has become. -/
def toValue : Node → Value
  | leaf v => v
  | table _ entries => .table (fieldsOf entries)
  | tables complete current => .list (tablesOf complete ++ [.table (fieldsOf current)])

/-- What the entries of a table have become. -/
def fieldsOf : List (String × Node) → List (String × Value)
  | [] => []
  | (key, node) :: entries => (key, toValue node) :: fieldsOf entries

/-- What the tables of a list have become. -/
def tablesOf : List (List (String × Node)) → List Value
  | [] => []
  | entries :: more => .table (fieldsOf entries) :: tablesOf more

end

end Node

namespace Entries

/-- Changes the entry at a key, or adds one at the end; the change may be refused. -/
def alter (key : String) (f : Option Node → Option Node) : Entries → Option Entries
  | [] => (f none).map fun node => [(key, node)]
  | (k, node) :: entries =>
      if k == key then (f (some node)).map fun node' => (k, node') :: entries
      else (alter key f entries).map ((k, node) :: ·)

/-- Goes along a path to a table and changes its entries there. Tables that are missing on the way
are opened. -/
def within (change : Entries → Option Entries) : List String → Entries → Option Entries
  | [], entries => change entries
  | key :: path, entries =>
      alter key
        (fun
          | none => (within change path []).map (.table .implied)
          | some (.table origin inner) => (within change path inner).map (.table origin)
          | some (.tables complete current) => (within change path current).map (.tables complete)
          | some (.leaf _) => none)
        entries

/-- Opens the table of a header. It may have been implied before, but not come about otherwise. -/
def declare (key : String) : Entries → Option Entries :=
  alter key fun
    | none => some (.table .declared [])
    | some (.table .implied inner) => some (.table .declared inner)
    | some _ => none

/-- Adds a table to the list of a double header. -/
def extend (key : String) : Entries → Option Entries :=
  alter key fun
    | none => some (.tables [] [])
    | some (.tables complete current) => some (.tables (complete ++ [current]) [])
    | some _ => none

/-- Puts a value at a dotted key. The tables on the way may have been implied before, or opened by a
dotted key of the same section. -/
def assign (section_ : Nat) (value : Value) : List String → Entries → Option Entries
  | [], _ => none
  | [key], entries =>
      alter key
        (fun
          | none => some (.leaf value)
          | some _ => none)
        entries
  | key :: path, entries =>
      alter key
        (fun
          | none => (assign section_ value path []).map (.table (.dotted section_))
          | some (.table .implied inner) =>
              (assign section_ value path inner).map (.table (.dotted section_))
          | some (.table (.dotted n) inner) =>
              if n = section_ then (assign section_ value path inner).map (.table (.dotted n))
              else none
          | some _ => none)
        entries

end Entries

end Vigil.Toml
