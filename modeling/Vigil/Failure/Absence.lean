import Vigil.Failure

/-!
# What a failed query says about the resource

The only distinction that a watch needs is whether a failure means that the resource is gone. The
service says so with a code and a message of its own; on other paths only the text of the failure
tells, so a phrase in the text counts as well.
-/

namespace Vigil

/-- The code with which the service says that something does not exist. -/
def notFoundCode : String := "ResourceNotFoundException"

/-- How failures say that a resource is gone. -/
structure AbsenceRule where
  /-- How the message begins that comes with the code of the service. -/
  opening : String
  /-- What the text of any failure contains. -/
  phrase : String
  deriving DecidableEq, Repr, Inhabited

namespace AbsenceRule

/-- The refusal has the code of the service and a message with the right beginning. A message that
is not a text has no beginning. -/
def matchesRefusal (rule : AbsenceRule) (r : Refusal) : Except Defect Bool :=
  if (r.code.getD (.text "")).asText? = some notFoundCode then
    match (r.message.getD (.text "")).asText? with
    | some message => .ok (Text.startsWith message rule.opening)
    | none => .error .missingPart
  else .ok false

/-- The failure means that the resource is gone. Its text is only looked at if its code and message
do not say so. -/
def isAbsent (rule : AbsenceRule) (f : Failure) : Except Defect Bool := do
  let structured ←
    match f with
    | .refused r => rule.matchesRefusal r
    | _ => .ok false
  if structured then return true else return Text.contains (← f.text) rule.phrase

end AbsenceRule

/-- How the service says that a cluster does not exist. -/
def clusterAbsence : AbsenceRule := ⟨"No cluster found for", "No cluster found for name: "⟩

/-- How the service says that an update does not exist. -/
def updateAbsence : AbsenceRule := ⟨"No update found for", "No update found"⟩

/-- What a failed query means for the watch. -/
inductive Verdict where
  | absentExpected
  | absentUnexpected
  | transient
  deriving DecidableEq, Repr, Inhabited

namespace Verdict

def all : List Verdict := [absentExpected, absentUnexpected, transient]

def word : Verdict → String
  | absentExpected => "absent-expected"
  | absentUnexpected => "absent-unexpected"
  | transient => "transient"

/-- Absence is good news exactly when it was the goal. -/
def ofAbsence (isAbsent absenceDesired : Bool) : Verdict :=
  if !isAbsent then transient else if absenceDesired then absentExpected else absentUnexpected

end Verdict

/-- The meaning of a failed query under a rule for absence. -/
def classify (isAbsent : Failure → Except Defect Bool) (f : Failure) (absenceDesired : Bool) :
    Except Defect Verdict := do
  return Verdict.ofAbsence (← isAbsent f) absenceDesired

end Vigil
