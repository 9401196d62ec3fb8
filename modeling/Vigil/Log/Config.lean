import Vigil.Defect
import Vigil.Log.Level
import Vigil.Value

/-!
# What handlers are asked for

The parameters of the handlers as they were given. They are checked where they are used, one after
the other, while the handlers are set up.
-/

namespace Vigil.Log

/-- The parameters of the handlers. -/
structure Config where
  /-- The least level that is shown. -/
  level : Value
  /-- Whether the console shows records. -/
  console : Bool
  /-- The path of a log file; nothing and what is empty stand for no file. -/
  file : Value
  /-- When a new log file is begun. -/
  rotation : Value
  /-- How many old log files are kept. -/
  retention : Value
  deriving Inhabited

namespace Config

/-- The names of the parameters. -/
def keys : List String := ["level", "console", "file", "rotation", "retention"]

def defaultLevel : Level := .info

def defaultRotation : String := "20 MB"

def defaultRetention : Nat := 5

/-- Parameters from fields, with defaults for those that are missing. -/
def ofFields (fields : Fields) : Config :=
  { level := (Fields.get? fields "level").getD (.text defaultLevel.name)
    console := ((Fields.get? fields "console").map Value.truthy).getD true
    file := (Fields.get? fields "file").getD .null
    rotation := (Fields.get? fields "rotation").getD (.text defaultRotation)
    retention := (Fields.get? fields "retention").getD (.whole defaultRetention) }

/-- Parameters from fields that all have to be known. -/
def make (fields : Fields) : Except Defect Config :=
  if (Fields.keys fields).all keys.contains then .ok (ofFields fields) else .error .wrongKind

end Config

end Vigil.Log
