import Vigil.Event
import Vigil.Failure.Absence

/-!
# What a watch observes

A strategy says how the answers of a service are read: where the payload is, what its status is,
which failures mean that the resource is gone, and what a log line shows.
-/

namespace Vigil.Watch

/-- What comes back from one query. -/
inductive Answer where
  | response (v : Value)
  | failure (f : Failure)
  /-- The query cancelled the task that ran it. -/
  | cancelled
  deriving Inhabited

/-- An answer after it was read. -/
inductive Result where
  | payload (v : Value)
  | failure (f : Failure)
  | cancelled
  deriving Inhabited

/-- How a resource is observed. -/
structure Strategy where
  description : String
  /-- The desired status that means that the resource is gone, if absence can be a goal. -/
  absentStatus : Option String
  /-- The parts of a request for a resource. -/
  request : String → List (String × String)
  /-- Each query opens a client of its own and closes it at its end. -/
  opensClient : Bool
  /-- The payload of a response. -/
  payloadOf : Value → Except Failure Value
  statusOf : Value → Except Defect Value
  isAbsent : Failure → Except Defect Bool
  /-- What a log line shows of a payload besides its status. -/
  logFields : Value → Except Defect (List (String × String))

namespace Strategy

/-- Reads an answer. -/
def read (s : Strategy) : Answer → Result
  | .response v =>
      match s.payloadOf v with
      | .ok payload => .payload payload
      | .error f => .failure f
  | .failure f => .failure f
  | .cancelled => .cancelled

/-- The absence of the resource is the goal. -/
def absenceDesired (s : Strategy) (desired : String) : Bool := s.absentStatus == some desired

end Strategy

/-- A part of a payload by its key; only tables have parts with keys. -/
def item (payload : Value) (key : String) : Except Defect Value :=
  match payload with
  | .table fields =>
      match Fields.get? fields key with
      | some v => .ok v
      | none => .error .missingKey
  | _ => .error .wrongKind

/-- A strategy whose payload is the response itself and whose status is one part of it, unread. -/
def keyed (description : String) (absentStatus : Option String) (rule : AbsenceRule)
    (statusKey : String) (logKeys : List String) : Strategy :=
  { description := description
    absentStatus := absentStatus
    request := fun resource => [("id", resource)]
    opensClient := false
    payloadOf := .ok
    statusOf := fun payload => item payload statusKey
    isAbsent := rule.isAbsent
    logFields := fun payload =>
      logKeys.eraseDups.mapM fun key => do return (key, ← (← item payload key).shown) }

end Vigil.Watch
