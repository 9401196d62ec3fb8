import Vigil.Cancellation
import Vigil.Log.Record
import Vigil.Watch.Config
import Vigil.Watch.Strategy

/-!
# From an answer to an event

What a watch makes of one answer depends on the answer alone: the event that it publishes, and the
notes that it logs on the way.
-/

namespace Vigil.Watch

open Log (Note)

variable {τ ω : Type} [Clock τ]

/-- Where a watch stands when it looks at an answer. -/
structure Moment (τ : Type) where
  now : τ
  started : τ
  cancellation : Cancellation τ

/-- What a failed query leads to. Each of its notes shows the text of the failure. -/
def observeFailure (config : WaitConfig ω) (strategy : Strategy) (f : Failure) :
    List Note × Except Defect (Event τ) :=
  match classify strategy.isAbsent f (strategy.absenceDesired config.desired.text), f.text with
  | .error d, _ => ([], .error d)
  | .ok _, .error d => ([], .error d)
  | .ok .absentExpected, .ok text =>
      ([.info (strategy.description ++ " already gone as desired: " ++ text)], .ok .absent)
  | .ok .absentUnexpected, .ok text =>
      ([.warning (strategy.description ++ " does not exist; aborting: " ++ text)],
        .ok (.notFound (.notFound config.resource (some f))))
  | .ok .transient, .ok text =>
      ([.warning ("Query failed; retrying: " ++ f.kind ++ ": " ++ text)], .ok (.queryError f))

/-- The line that is logged for every payload, with the text of its status. -/
def pollLine (m : Moment τ) (shown : String) (fields : List (String × String)) : String :=
  "Poll | status=" ++ shown ++
    String.join (fields.map fun (key, text) => " | " ++ key ++ "=" ++ text) ++
    " | started " ++ Clock.tenths (Clock.sub m.now m.started) ++ "s ago | time left " ++
    m.cancellation.describe m.now

/-- The status reads as the desired one. -/
def isDesired (config : WaitConfig ω) (status : Value) : Bool :=
  status.asText? == some config.desired.text

/-- The status is one of those that end the watch as a failure. -/
def isFailure (config : WaitConfig ω) (status : Value) : Except Defect Bool :=
  if status.canBeMember then
    .ok ((status.asText?.map config.failures.contains).getD false)
  else .error .wrongKind

/-- What an observation leads to, after the line that is logged for it. -/
def observeStatus (config : WaitConfig ω) (strategy : Strategy) (line : Note) (shown : String)
    (snapshot : Snapshot τ) : List Note × Except Defect (Event τ) :=
  let status := snapshot.status
  if isDesired config status then
    ([line, .info ("Desired " ++ strategy.description ++ " status reached: " ++ shown)],
      .ok (.desired snapshot))
  else
    match isFailure config status with
    | .error d => ([line], .error d)
    | .ok true =>
        ([line, .warning (strategy.description ++ " reached failure status " ++ shown)],
          .ok (.failed snapshot (.badStatus config.resource status config.desired.toValue)))
    | .ok false => ([line], .ok (.progress snapshot))

/-- What the payload of a query leads to. The moment of an observation has to be on the calendar,
and its status has to have a text. -/
def observePayload (config : WaitConfig ω) (strategy : Strategy) (m : Moment τ) (payload : Value) :
    List Note × Except Defect (Event τ) :=
  if !payload.truthy then
    ([.warning "Expected non-empty response; retrying"],
      .ok (.emptyResponse (.emptyResponse config.resource payload)))
  else
    match strategy.statusOf payload with
    | .error d => ([], .error d)
    | .ok status =>
        match Clock.stamp? m.now with
        | none => ([], .error .tooLarge)
        | some fetchedAt =>
            match strategy.logFields payload with
            | .error d => ([], .error d)
            | .ok fields =>
                match status.shown with
                | .error d => ([], .error d)
                | .ok shown =>
                    observeStatus config strategy (.info (pollLine m shown fields)) shown
                      ⟨config.resource, status, payload, fetchedAt⟩

end Vigil.Watch
