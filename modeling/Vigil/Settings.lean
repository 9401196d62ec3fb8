import Vigil.Cancellation
import Vigil.Eks.Connection
import Vigil.Log.Config
import Vigil.Settings.Section
import Vigil.Settings.Sources
import Vigil.Text.UpperCase
import Vigil.Watch.Config

/-!
# Settings

The table of the configuration files is checked section by section and turned into the parameters of
the connection, of watches and of the log. The first mistake ends the check.
-/

namespace Vigil

open Number (Amount)

/-- The settings of a project. -/
structure Settings where
  connection : Eks.Connection
  initialWait : Float
  pollInterval : Float
  /-- How long a whole watch may take. -/
  timeout : Option Float
  log : Log.Config
  deriving Inhabited

namespace Settings

/-- The parameters of the connection. -/
def connectionOf (section_ : Value) : Except Fault Eks.Connection := do
  let fields ← fieldsOf section_
  requireKnown "eks" Eks.Connection.keys (Fields.keys fields)
  return .ofFields fields

/-- A number of seconds that is not negative. -/
def secondsOf (key : String) (given : Amount) : Except Fault Float :=
  if given.isNegative then .error (.negativeSeconds key given)
  else
    match given.toFloat? with
    | some seconds => .ok seconds
    | none => .error (.defect .tooLarge)

/-- A number of seconds, if one is given. Truth values are no numbers here. -/
def seconds? (fields : Fields) (key : String) : Except Fault (Option Float) :=
  match Fields.get? fields key with
  | none => .ok none
  | some .null => .ok none
  | some (.whole n) => (secondsOf key (.whole n)).map some
  | some (.real x) => (secondsOf key (.real x)).map some
  | some given => .error (.notSeconds key given)

/-- The level that a section asks for. -/
def levelOf (fields : Fields) : Except Fault Log.Level :=
  match Fields.get? fields "level" with
  | none => .ok Log.Config.defaultLevel
  | some given => do
      match Log.Level.selectable? (Text.upperCase (← given.shown.mapError .defect)) with
      | some level => return level
      | none => throw (.unknownLevel given)

/-- The number of old log files that a section asks for. -/
def retentionOf (fields : Fields) : Except Fault Nat :=
  match Fields.get? fields "retention" with
  | none => .ok Log.Config.defaultRetention
  | some (.whole n) => if n < 0 then .error (.badRetention (.whole n)) else .ok n.toNat
  | some given => .error (.badRetention given)

/-- When a new log file is begun, as a text. -/
def rotationOf (fields : Fields) : Except Fault String :=
  match Fields.get? fields "rotation" with
  | none => .ok Log.Config.defaultRotation
  | some given => given.shown.mapError .defect

/-- The parameters of the log. Its keys are checked before it is known to be a table. -/
def logOf (section_ : Value) : Except Fault Log.Config := do
  requireKnown "log" Log.Config.keys (← namesOf section_)
  let fields ← tableOf section_
  let level ← levelOf fields
  let retention ← retentionOf fields
  let rotation ← rotationOf fields
  return {
    level := .text level.name
    console := ((Fields.get? fields "console").map Value.truthy).getD true
    file := (Fields.get? fields "file").getD .null
    rotation := .text rotation
    retention := .whole retention }

/-- One section of a table. -/
def sectionOf (fields : Fields) (name : String) : Value :=
  (Fields.get? fields name).getD (.table [])

/-- Settings from the table of the configuration files. -/
def ofFields (fields : Fields) : Except Fault Settings := do
  let connection ← connectionOf (sectionOf fields "eks")
  let wait ← tableOf (sectionOf fields "wait")
  let initialWait ← seconds? wait "initial_wait"
  let pollInterval ← seconds? wait "poll_interval"
  let timeout ← seconds? wait "timeout"
  let log ← logOf (sectionOf fields "log")
  return {
    connection := connection
    initialWait := initialWait.getD Watch.defaultInitialWait
    pollInterval := pollInterval.getD Watch.defaultPollInterval
    timeout := timeout
    log := log }

/-- Settings from the configuration files. -/
def ofSources (shared project : Source) : Except Fault Settings := do
  ofFields (← load shared project)

/-- The cancellation of a watch with these settings. -/
def cancellation (s : Settings) (now : Float) : Cancellation Float :=
  .after now s.timeout

end Settings

end Vigil
