import Vigil.Failure

/-!
# Events

A watch tells its consumer what it saw, one event per observation, and last how it ended. Which
parts an event carries follows from its kind, so each kind is a constructor with exactly its parts.
-/

namespace Vigil

/-- One observation of a resource. -/
structure Snapshot (τ : Type) where
  resource : String
  status : Value
  payload : Value
  fetchedAt : τ
  deriving Inhabited

inductive Event.Kind where
  | progress
  | desired
  | absent
  | failed
  | notFound
  | queryError
  | emptyResponse
  | cancelled
  | stopped
  deriving DecidableEq, Repr, Inhabited

namespace Event.Kind

def all : List Kind :=
  [progress, desired, absent, failed, notFound, queryError, emptyResponse, cancelled, stopped]

def name : Kind → String
  | progress => "PROGRESS"
  | desired => "DESIRED"
  | absent => "ABSENT"
  | failed => "FAILED"
  | notFound => "NOT_FOUND"
  | queryError => "QUERY_ERROR"
  | emptyResponse => "EMPTY_RESPONSE"
  | cancelled => "CANCELLED"
  | stopped => "STOPPED"

def word : Kind → String
  | progress => "progress"
  | desired => "desired"
  | absent => "absent"
  | failed => "failed"
  | notFound => "not-found"
  | queryError => "query-error"
  | emptyResponse => "empty-response"
  | cancelled => "cancelled"
  | stopped => "stopped"

def ofWord? (w : String) : Option Kind := all.find? fun k => k.word == w

/-- A watch goes on after these kinds and ends with any other. -/
def isTerminal : Kind → Bool
  | progress => false
  | queryError => false
  | emptyResponse => false
  | _ => true

end Event.Kind

/-- An entry on the stream of a watch. -/
inductive Event (τ : Type) where
  | progress (snapshot : Snapshot τ)
  | desired (snapshot : Snapshot τ)
  | absent
  | failed (snapshot : Snapshot τ) (failure : Failure)
  | notFound (failure : Failure)
  | queryError (failure : Failure)
  | emptyResponse (failure : Failure)
  | cancelled (failure : Failure)
  | stopped (failure : Failure)
  deriving Inhabited

namespace Event

variable {τ : Type}

def kind : Event τ → Kind
  | progress _ => .progress
  | desired _ => .desired
  | absent => .absent
  | failed _ _ => .failed
  | notFound _ => .notFound
  | queryError _ => .queryError
  | emptyResponse _ => .emptyResponse
  | cancelled _ => .cancelled
  | stopped _ => .stopped

def snapshot? : Event τ → Option (Snapshot τ)
  | progress s => some s
  | desired s => some s
  | failed s _ => some s
  | _ => none

def failure? : Event τ → Option Failure
  | progress _ => none
  | desired _ => none
  | absent => none
  | failed _ f => some f
  | notFound f => some f
  | queryError f => some f
  | emptyResponse f => some f
  | cancelled f => some f
  | stopped f => some f

def isTerminal (e : Event τ) : Bool := e.kind.isTerminal

/-- The event carries no failure. -/
def isOk (e : Event τ) : Bool := e.failure?.isNone

/-- Parts that do not belong to the kind of an event. -/
inductive Mismatch where
  | snapshotPresence (kind : Kind)
  | failurePresence (kind : Kind)
  deriving DecidableEq, Repr

/-- The message about parts that do not fit. -/
def Mismatch.message : Mismatch → String
  | snapshotPresence kind => kind.word ++ " event has wrong snapshot presence"
  | failurePresence kind => kind.word ++ " event has wrong error presence"

/-- Puts an event together from a kind and optional parts. The snapshot is checked first. -/
def ofParts (kind : Kind) (snapshot : Option (Snapshot τ)) (failure : Option Failure) :
    Except Mismatch (Event τ) :=
  match kind, snapshot, failure with
  | .progress, some s, none => .ok (progress s)
  | .progress, some _, some _ => .error (.failurePresence kind)
  | .desired, some s, none => .ok (desired s)
  | .desired, some _, some _ => .error (.failurePresence kind)
  | .failed, some s, some f => .ok (failed s f)
  | .failed, some _, none => .error (.failurePresence kind)
  | .absent, none, none => .ok absent
  | .absent, none, some _ => .error (.failurePresence kind)
  | .notFound, none, some f => .ok (notFound f)
  | .queryError, none, some f => .ok (queryError f)
  | .emptyResponse, none, some f => .ok (emptyResponse f)
  | .cancelled, none, some f => .ok (cancelled f)
  | .stopped, none, some f => .ok (stopped f)
  | .notFound, none, none => .error (.failurePresence kind)
  | .queryError, none, none => .error (.failurePresence kind)
  | .emptyResponse, none, none => .error (.failurePresence kind)
  | .cancelled, none, none => .error (.failurePresence kind)
  | .stopped, none, none => .error (.failurePresence kind)
  | _, _, _ => .error (.snapshotPresence kind)

/-- An event is put together from its own parts again. -/
theorem ofParts_parts (e : Event τ) : ofParts e.kind e.snapshot? e.failure? = .ok e := by
  cases e <;> rfl

end Event

end Vigil
