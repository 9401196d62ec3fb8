import Vigil.Failure
import Vigil.Log.Level
import Vigil.Number.Amount

/-!
# Why settings are turned down

Most faults are mistakes of whoever wrote a file and have a message for them. The others are data of
a shape that nobody expected.
-/

namespace Vigil

/-- The places where settings are looked up. -/
inductive Settings.Place where
  /-- The settings that all projects share. -/
  | shared
  | project
  deriving DecidableEq, Repr, Inhabited

/-- How a message calls a place. -/
def Settings.Place.name : Settings.Place → String
  | shared => "<global>"
  | project => "<project>"

/-- Why settings are turned down. -/
inductive Settings.Fault where
  /-- The bytes of a file are no text. -/
  | notText (place : Settings.Place)
  /-- A file breaks the rules of its format. -/
  | malformed (place : Settings.Place)
  /-- A section has keys that it does not know. -/
  | unknownKeys (section_ : String) (keys : List String)
  | notSeconds (key : String) (given : Value)
  | negativeSeconds (key : String) (given : Number.Amount)
  | unknownLevel (given : Value)
  | badRetention (given : Value)
  /-- An item of a list that stands for a table is not a pair. -/
  | notAPair (position length : Nat)
  | defect (d : Defect)
  deriving Inhabited

namespace Settings.Fault

/-- What the caller gets to see of a fault: a failure with a message, or a defect of its data. A
value that cannot be written leaves no message. -/
def toFailure : Fault → Except Defect Failure
  | notText _ => .ok (.foreign "UnicodeDecodeError" [])
  | malformed place => .ok (.configuration [.text ("Invalid TOML in " ++ place.name)])
  | unknownKeys section_ keys =>
      .ok (.configuration
        [.text ("Unknown " ++ section_ ++ " settings: " ++ String.intercalate ", " keys)])
  | notSeconds key given => do
      return .configuration
        [.text ("wait." ++ key ++ " must be a number of seconds, got " ++ (← given.quoted))]
  | negativeSeconds key given => do
      return .configuration [.text ("wait." ++ key ++ " must be >= 0, got " ++ (← given.text))]
  | unknownLevel given => do
      return .configuration
        [.text ("log.level must be one of " ++
          String.intercalate ", " (Log.Level.selectable.map Log.Level.name) ++ ", got " ++
          (← given.quoted))]
  | badRetention given => do
      return .configuration
        [.text ("log.retention must be a non-negative integer, got " ++ (← given.quoted))]
  | notAPair position length =>
      .ok (.foreign "ValueError"
        [.text ("dictionary update sequence element #" ++ toString position ++ " has length " ++
          toString length ++ "; 2 is required")])
  | defect d => .error d

end Settings.Fault

end Vigil
