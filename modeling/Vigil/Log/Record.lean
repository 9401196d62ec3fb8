import Vigil.Clock
import Vigil.Failure
import Vigil.Log.Level

/-!
# Log records

A record says what happened, when and where, and which watch it belongs to. The parts that name the
watch are bound to its records under fixed keys, so that interleaved watches can be told apart.
-/

namespace Vigil.Log

/-- What is to be logged. -/
structure Note where
  level : Level
  message : String
  /-- The failure that the note is about, for notes that show one. -/
  failure : Option Failure
  deriving Inhabited

namespace Note

def info (message : String) : Note := ⟨.info, message, none⟩

def warning (message : String) : Note := ⟨.warning, message, none⟩

end Note

/-- The keys that name a watch, in the order in which a line shows them. -/
def watchKeys : List String := ["component", "resource", "desired"]

/-- The package that the records of this library are filed under. -/
def package : String := "clusterwait"

/-- The part of the package that watches log under. -/
def watchModule : String := package ++ ".engine"

/-- A record can be made at an instant. If nobody hears it, nothing is made of it and the clock is
not looked at; otherwise it shows its moment, which has to be on the calendar. -/
def canRecord {τ : Type} [Clock τ] (heard : Bool) (instant : τ) : Bool :=
  !heard || (Clock.stamp? instant).isSome

/-- A record with everything that a handler can show of it. -/
structure Record (τ : Type) where
  at_ : τ
  origin : String
  level : Level
  message : String
  bound : Fields
  failure : Option Failure
  deriving Inhabited

end Vigil.Log
