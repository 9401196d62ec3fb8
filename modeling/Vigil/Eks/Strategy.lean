import Vigil.Watch.Strategy

/-!
# Clusters and their updates

Both strategies ask the service for a description, in which the payload is one part and its status
is shown as a text whatever it is.
-/

namespace Vigil.Eks

open Watch (Strategy)

/-- Asks a value for one of its parts; only tables have parts. -/
def part? (v : Value) (key : String) : Except Defect (Option Value) :=
  match v with
  | .table fields => .ok (Fields.get? fields key)
  | _ => .error .missingPart

/-- The failure of a query whose response is not a table. -/
def notATable (v : Value) : Failure :=
  .foreign "AttributeError" [.text ("'" ++ v.kindName ++ "' object has no attribute 'get'")]

/-- The payload is one part of the response, and nothing if that part is missing. -/
def payloadAt (key : String) (response : Value) : Except Failure Value :=
  match part? response key with
  | .ok payload => .ok (payload.getD .null)
  | .error _ => .error (notATable response)

/-- The text of one part of a payload, empty if it is missing. -/
def textAt (payload : Value) (key : String) : Except Defect String := do
  match ← part? payload key with
  | some v => v.shown
  | none => return ""

/-- The status of a payload, as a text. -/
def statusOf (payload : Value) : Except Defect Value := do return .text (← textAt payload "status")

/-- Watches a cluster by its name. Its absence can be a goal. -/
def clusterStrategy : Strategy :=
  { description := "cluster"
    absentStatus := some ClusterStatus.gone.word
    request := fun resource => [("name", resource)]
    opensClient := true
    payloadOf := payloadAt "cluster"
    statusOf := statusOf
    isAbsent := clusterAbsence.isAbsent
    logFields := fun payload => do
      match ← part? payload "version" with
      | some version =>
          if version.truthy then return [("version", ← version.shown)] else return []
      | none => return [] }

/-- Watches an update of a cluster by the id of the update. Its absence is never a goal. -/
def updateStrategy (cluster : String) : Strategy :=
  { description := "cluster update"
    absentStatus := none
    request := fun resource => [("name", cluster), ("updateId", resource)]
    opensClient := true
    payloadOf := payloadAt "update"
    statusOf := statusOf
    isAbsent := updateAbsence.isAbsent
    logFields := fun payload => do
      return [("cluster", cluster), ("update-type", ← textAt payload "type")] }

end Vigil.Eks
