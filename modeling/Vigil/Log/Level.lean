/-!
# Levels of log records

A record has a level, and a handler a least level that it shows. Levels compare by rank.
-/

namespace Vigil.Log

/-- A level with its name and its rank. -/
structure Level where
  name : String
  rank : Nat
  deriving DecidableEq, Repr, Inhabited

namespace Level

def trace : Level := ⟨"TRACE", 5⟩
def debug : Level := ⟨"DEBUG", 10⟩
def info : Level := ⟨"INFO", 20⟩
def success : Level := ⟨"SUCCESS", 25⟩
def warning : Level := ⟨"WARNING", 30⟩
def error : Level := ⟨"ERROR", 40⟩
def critical : Level := ⟨"CRITICAL", 50⟩

/-- The levels that records can have, the lowest first. -/
def all : List Level := [trace, debug, info, success, warning, error, critical]

/-- The levels that settings can ask for, the lowest first. -/
def selectable : List Level := [trace, debug, info, warning, error]

/-- The level of a name. -/
def ofName? (name : String) : Option Level := all.find? fun level => level.name == name

/-- The selectable level of a name. -/
def selectable? (name : String) : Option Level := selectable.find? fun level => level.name == name

/-- A level that has a rank and no name of its own. -/
def ofRank (rank : Nat) : Level := ⟨"Level " ++ toString rank, rank⟩

end Level

end Vigil.Log
