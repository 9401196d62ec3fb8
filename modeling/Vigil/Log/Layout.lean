import Vigil.Calendar.Pattern
import Vigil.Log.Record
import Vigil.Text.Lines

/-!
# How records are written

A line of the console shows the time of day, a line of a file the whole moment and the origin. Both
show whichever parts are bound to a record that name its watch.
-/

namespace Vigil.Log

open Calendar (Moment)

variable {τ : Type}

namespace Record

/-- The bound parts that name a watch, each with its key. -/
def watchParts (r : Record τ) : List (String × Value) :=
  watchKeys.filterMap fun key => (Fields.get? r.bound key).map fun v => (key, v)

/-- The bound parts that name a watch, in brackets and after a space; nothing if there are none. -/
def context (r : Record τ) : Except Defect String := do
  let parts ← r.watchParts.mapM fun (key, v) => do return key ++ "=" ++ (← v.shown)
  return if parts.isEmpty then "" else " [" ++ String.intercalate " " parts ++ "]"

/-- The name of the level, filled up with spaces to the length of the longest usual one. -/
def levelText (r : Record τ) : String :=
  r.level.name ++ String.ofList (List.replicate (7 - r.level.name.length) ' ')

/-- The record on the console. -/
def onConsole (r : Record τ) (m : Moment) : Except Defect String := do
  return m.shown "HH:mm:ss" ++ " " ++ r.levelText ++ (← r.context) ++ " " ++ r.message

/-- The record in a file. Its place within its origin is not known, and a letter stands for it. -/
def inFile (r : Record τ) (m : Moment) : Except Defect String := do
  return m.shown "YYYY-MM-DDTHH:mm:ss.SSSZZ" ++ " " ++ r.levelText ++ " " ++ r.origin ++ ":N" ++
    (← r.context) ++ " " ++ r.message

end Record

end Vigil.Log
