import Vigil.Clock
import Vigil.Failure

/-!
# What is watched and how

The parameters of a watch are checked once, when they are put together; a watch relies on them.
-/

namespace Vigil

/-- A text that is plain or a word of a status vocabulary. Both read the same; only quoting tells
them apart. -/
inductive Label where
  | plain (s : String)
  | word (w : StatusWord)
  deriving DecidableEq, Repr, Inhabited

namespace Label

def text : Label → String
  | plain s => s
  | word w => w.text

def toValue : Label → Value
  | plain s => .text s
  | word w => .word w

end Label

/-- The parameters of one watch. -/
structure WaitConfig (ω : Type) where
  resource : String
  /-- The status that ends the watch successfully. -/
  desired : Label
  /-- The statuses that end the watch as a failure. -/
  failures : List String
  /-- The pause after the first observation, if it is longer than the interval. -/
  initialWait : ω
  /-- The pause between observations. -/
  pollInterval : ω
  deriving Inhabited

namespace WaitConfig

variable {ω : Type} [Wait ω]

/-- Why parameters are turned down. -/
inductive Fault (ω : Type) where
  | emptyResource
  | emptyDesired
  | negativeInitialWait (given : ω)
  | negativePollInterval (given : ω)
  | desiredIsFailure (desired : Label)
  /-- A wait is not a number at all. -/
  | notANumber
  deriving DecidableEq, Repr, Inhabited

/-- What the caller gets to see of a fault: a failure with a message, or a defect of its data. A
wait that cannot be written leaves no message. -/
def Fault.toFailure : Fault ω → Except Defect Failure
  | emptyResource => .ok (.configuration [.text "resource_id must not be empty"])
  | emptyDesired => .ok (.configuration [.text "desired_status must not be empty"])
  | negativeInitialWait given => do
      return .configuration [.text ("initial_wait must be >= 0, got " ++ (← Wait.text given))]
  | negativePollInterval given => do
      return .configuration [.text ("poll_interval must be >= 0, got " ++ (← Wait.text given))]
  | desiredIsFailure desired => do
      return .configuration
        [.text ("desired_status " ++ (← desired.toValue.quoted) ++ " is also a failure status")]
  | notANumber => .error .wrongKind

/-- Puts parameters together. The checks run in the order of the parameters, and the last one looks
at two of them. A missing label counts as an empty one. -/
def make (resource desired : Option Label) (failures : List String)
    (initialWait pollInterval : Option ω) : Except (Fault ω) (WaitConfig ω) := do
  let some resource := resource | throw .emptyResource
  if resource.text.isEmpty then throw .emptyResource
  let some desired := desired | throw .emptyDesired
  if desired.text.isEmpty then throw .emptyDesired
  let some initialWait := initialWait | throw .notANumber
  if Wait.isNegative initialWait then throw (.negativeInitialWait initialWait)
  let some pollInterval := pollInterval | throw .notANumber
  if Wait.isNegative pollInterval then throw (.negativePollInterval pollInterval)
  if failures.contains desired.text then throw (.desiredIsFailure desired)
  return ⟨resource.text, desired, failures, initialWait, pollInterval⟩

/-- The pause after the first observation. -/
def grace (c : WaitConfig ω) : ω := Wait.longer c.initialWait c.pollInterval

/-- What the records of a watch are bound to. -/
def bound (c : WaitConfig ω) : Fields :=
  [("component", .text "poller"), ("resource", .text c.resource), ("desired", c.desired.toValue)]

end WaitConfig

/-- How many seconds a watch waits after its first observation unless told otherwise. -/
def Watch.defaultInitialWait : Float := 0.0

/-- How many seconds a watch waits between observations unless told otherwise. -/
def Watch.defaultPollInterval : Float := 10.0

end Vigil
