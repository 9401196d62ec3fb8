import Vigil.Defect
import Vigil.Failure.ErrorNumber
import Vigil.Text.Search
import Vigil.Value

/-!
# Failures

What can go wrong during a watch, each failure with the data that its message is made of. Failures
of the service and of the caller's own code are carried along unchanged, so that whoever receives an
event can tell exactly what happened.
-/

namespace Vigil

/-- A part of the message of a refusal, with a word for one that is missing. -/
def Refusal.partText : Option Value → Except Defect String
  | some part => part.shown
  | none => .ok "Unknown"

/-- What the message of a refusal says of repeated requests. -/
def Refusal.retriesText : Option Value → Except Defect String
  | some retries => do return " (reached max retries: " ++ (← retries.shown) ++ ")"
  | none => .ok ""

/-- The message of a refusal from its parts. -/
def Refusal.wording (code message retries : Option Value) (operation : String) :
    Except Defect String := do
  return "An error occurred (" ++ (← partText code) ++ ") when calling the " ++ operation ++
    " operation" ++ (← retriesText retries) ++ ": " ++ (← partText message)

/-- The error part of an answer in which the service refuses a request. A part that is missing has
its own wording, so it is kept apart from a part that is null. The message is put together with the
refusal, so that there is no refusal without one. -/
structure Refusal where
  code : Option Value
  message : Option Value
  /-- How often the request was repeated, when the repeats were used up. -/
  retries : Option Value
  operation : String
  text : String
  spelled : Refusal.wording code message retries operation = .ok text

namespace Refusal

/-- A refusal from its parts, if they have a message. -/
def make (code message retries : Option Value) (operation : String) : Except Defect Refusal :=
  match h : wording code message retries operation with
  | .ok text => .ok ⟨code, message, retries, operation, text, h⟩
  | .error d => .error d

/-- A refusal whose code and message are texts. -/
def ofTexts (code message operation : String) : Refusal :=
  ⟨some (.text code), some (.text message), none, operation, _, rfl⟩

/-- The part of an answer that tells about repeated requests. -/
def retriesOf (response : Fields) : Except Defect (Option Value) :=
  match Fields.get? response "ResponseMetadata" with
  | none => .ok none
  | some (.table details) =>
      if ((Fields.get? details "MaxAttemptsReached").map Value.truthy).getD false then
        .ok (Fields.get? details "RetryAttempts")
      else .ok none
  | some _ => .error .missingPart

/-- Reads a refusal from the answer of the service. -/
def ofResponse (response : Value) (operation : String) : Except Defect Refusal :=
  match response with
  | .table fields => do
      let retries ← retriesOf fields
      match Fields.get? fields "Error" with
      | none => make none none retries operation
      | some (.table details) =>
          make (Fields.get? details "Code") (Fields.get? details "Message") retries operation
      | some _ => .error .missingPart
  | .text s =>
      .error (if Text.contains s "ResponseMetadata" then .wrongKind else .missingPart)
  | .list items =>
      .error (if items.any fun item => item.asText? == some "ResponseMetadata" then .wrongKind
        else .missingPart)
  | _ => .error .wrongKind

end Refusal

/-- A failure with the data of its message. -/
inductive Failure where
  /-- A failure of outside code, known by the name of its kind. -/
  | foreign (kind : String) (args : List Value)
  /-- The service refused the request. -/
  | refused (refusal : Refusal)
  /-- A watch could not do its work. -/
  | general (args : List Value)
  /-- The settings of a watch are not acceptable. -/
  | configuration (args : List Value)
  /-- A watch ended because its caller aborted it. -/
  | aborted (args : List Value)
  /-- The cancellation of a watch fired. -/
  | cancelled (resource : String) (deadlineExceeded : Bool)
  /-- The outside stop signal of a watch was given. -/
  | stopped (resource : String)
  /-- The resource disappeared although it was expected to exist. -/
  | notFound (resource : String) (cause : Option Failure)
  /-- The service reported a status that ends the watch as a failure. -/
  | badStatus (resource : String) (status desired : Value)
  /-- A query succeeded but its answer held nothing. -/
  | emptyResponse (resource : String) (response : Value)
  deriving Inhabited

namespace Failure

/-- The text of a list of arguments: nothing, the one argument, or all of them in parentheses. -/
def argsText (single : Value → Except Defect String) : List Value → Except Defect String
  | [] => .ok ""
  | [arg] => single arg
  | args => do return "(" ++ (← Value.quotedItems args) ++ ")"

/-- The message of a failure, unless a number in it cannot be written. -/
def text : Failure → Except Defect String
  | foreign kind args =>
      (ErrorNumber.text? kind args).getD
        (argsText (if kind == "KeyError" then Value.quoted else Value.shown) args)
  | refused r => .ok r.text
  | general args => argsText Value.shown args
  | configuration args => argsText Value.shown args
  | aborted args => argsText Value.shown args
  | cancelled resource deadlineExceeded =>
      .ok ("Wait for " ++ resource ++ " aborted: " ++
        (if deadlineExceeded then "deadline exceeded" else "cancelled"))
  | stopped resource => .ok ("Wait for " ++ resource ++ " stopped")
  | notFound resource none => .ok (resource ++ " does not exist")
  | notFound resource (some cause) => do return resource ++ " does not exist: " ++ (← cause.text)
  | badStatus resource status desired => do
      return "Unexpected status " ++ (← status.quoted) ++ " for " ++ resource ++ " (desired " ++
        (← desired.quoted) ++ ")"
  | emptyResponse resource response => do
      return "Unexpected empty response for " ++ resource ++ ": " ++ (← response.quoted)

/-- The name of the kind of a failure. -/
def kind : Failure → String
  | foreign kind args => ErrorNumber.kindOf kind args
  | refused _ => "ClientError"
  | general _ => "ClusterWaitError"
  | configuration _ => "ConfigurationError"
  | aborted _ => "WaitAbortedError"
  | cancelled _ _ => "WaitCancelledError"
  | stopped _ => "WaitStoppedError"
  | notFound _ _ => "ResourceNotFoundError"
  | badStatus _ _ _ => "FailureStatusError"
  | emptyResponse _ _ => "EmptyResponseError"

/-- The kinds that a failure of a watch belongs to, the narrowest first. -/
def kinds : Failure → List String
  | foreign kind args => [ErrorNumber.kindOf kind args]
  | refused _ => ["ClientError"]
  | general _ => ["ClusterWaitError"]
  | cancelled _ _ => ["WaitCancelledError", "WaitAbortedError", "ClusterWaitError"]
  | stopped _ => ["WaitStoppedError", "WaitAbortedError", "ClusterWaitError"]
  | f => [f.kind, "ClusterWaitError"]

/-- The failure is one of a watch, not of outside code. -/
def isOwn : Failure → Bool
  | foreign _ _ => false
  | refused _ => false
  | _ => true

end Failure

end Vigil
