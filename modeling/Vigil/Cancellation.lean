import Vigil.Clock

/-!
# Cancellation

A cancellation fires when it is asked to, or when the clock reaches its deadline. It tells the two
apart: the deadline counts as exceeded only while nobody has asked.
-/

namespace Vigil

/-- A signal to give up, with an optional deadline. -/
structure Cancellation (τ : Type) where
  /-- Somebody asked. -/
  requested : Bool
  deadline : Option τ
  deriving Inhabited

namespace Cancellation

variable {τ : Type} [Clock τ]

/-- A cancellation that has not fired, with a deadline after a span. -/
def after (now : τ) (timeout : Option τ) : Cancellation τ :=
  ⟨false, timeout.map (Clock.add now)⟩

def request (c : Cancellation τ) : Cancellation τ := { c with requested := true }

/-- The deadline passed and nobody asked. -/
def deadlineExceeded (c : Cancellation τ) (now : τ) : Bool :=
  !c.requested && (c.deadline.map (Clock.reached now)).getD false

def hasFired (c : Cancellation τ) (now : τ) : Bool := c.requested || c.deadlineExceeded now

/-- The span until the deadline, if there is one. -/
def timeLeft (c : Cancellation τ) (now : τ) : Option τ := c.deadline.map (Clock.left now)

def describe (c : Cancellation τ) (now : τ) : String :=
  match c.timeLeft now with
  | none => "no deadline"
  | some left => Clock.tenths left ++ "s"

/-- When somebody who waits for a cancellation has to look again. A timer is set to the span that is
left, and it may ring early. -/
inductive Alarm (τ : Type) where
  /-- The cancellation has fired: there is nothing to wait for. -/
  | over
  /-- Look again at the given instant, or only when somebody asks. -/
  | until (due : Option τ)
  deriving Inhabited

/-- What somebody who looks at a cancellation does next. -/
def look (c : Cancellation τ) (now : τ) : Alarm τ :=
  if c.hasFired now then .over else .until ((c.timeLeft now).map (Clock.add now))

end Cancellation

end Vigil
