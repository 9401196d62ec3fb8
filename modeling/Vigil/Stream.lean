/-!
# Streams

A stream carries entries from one side to the other in order. It holds at most `capacity` of them
while it is open, so that a slow receiver holds back a fast sender. Closing never waits, and a last
entry may be put on the stream at that moment even if it is full.
-/

namespace Vigil

/-- A bounded queue that can be closed. -/
structure Stream (ε : Type) where
  capacity : Nat
  /-- The entries that nobody has received, the oldest first. -/
  buffer : List ε
  closed : Bool
  deriving Inhabited

namespace Stream

variable {ε : Type}

/-- How many entries a stream holds unless its owner says otherwise. -/
def defaultCapacity : Nat := 10

/-- A capacity that no stream can have. -/
structure CapacityTooSmall where
  capacity : Int
  deriving DecidableEq, Repr

/-- The message about a capacity that no stream can have. -/
def CapacityTooSmall.message (e : CapacityTooSmall) : String :=
  "capacity must be >= 1, got " ++ toString e.capacity

def create (capacity : Int) : Except CapacityTooSmall (Stream ε) :=
  if capacity < 1 then .error ⟨capacity⟩ else .ok ⟨capacity.toNat, [], false⟩

/-- Why a stream turns an operation down. -/
inductive Denial where
  | sendAfterClose
  | closeAfterClose
  deriving DecidableEq, Repr, Inhabited

def Denial.message : Denial → String
  | sendAfterClose => "send on closed stream"
  | closeAfterClose => "stream already closed"

def hasRoom (s : Stream ε) : Bool := decide (s.buffer.length < s.capacity)

def push (s : Stream ε) (e : ε) : Stream ε := { s with buffer := s.buffer ++ [e] }

def close (s : Stream ε) : Except Denial (Stream ε) :=
  if s.closed then .error .closeAfterClose else .ok { s with closed := true }

/-- Puts a last entry on an open stream, room or not, and closes it. -/
def sendFinal (s : Stream ε) (e : ε) : Except Denial (Stream ε) :=
  if s.closed then .error .sendAfterClose else .ok { s.push e with closed := true }

end Stream

end Vigil
