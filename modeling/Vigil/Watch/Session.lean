import Vigil.Watch.Schedule
import Vigil.Watch.Script

/-!
# Consumers of a watch

A watch can be consumed as a whole, entry by entry at the consumer's own pace, or step by step with
signals in between. A session lets a watch run beside one of these consumers.
-/

namespace Vigil.Watch

open Log (Note)
open Vigil.Stream (Denial Reply)

variable {τ ω : Type} [Clock τ] [Wait ω] [Spans ω τ]

/-- How much work a session may do: the steps between two moves of the clock, and the moves. -/
structure Budget where
  steps : Nat
  jumps : Nat

/-- Every query takes a bounded number of steps and timers, and wakes every party at most twice. -/
def Budget.for (limit parties : Nat) : Budget :=
  ⟨(limit + 4) * (32 + 4 * parties), (limit + 4) * 8 + 8 * parties⟩

/-- A watch beside its consumers. -/
structure Session (τ ω : Type) where
  plan : Plan τ ω
  budget : Budget
  world : World τ ω
  /-- How many requests consumers have made. -/
  requests : Nat
  /-- The requests that receive one entry. -/
  receivers : List Nat

namespace Session

/-- Lets everybody go on until all are settled. -/
def settle (s : Session τ ω) : Session τ ω :=
  { s with world := s.world.settle s.plan s.budget.steps }

/-- Runs until the clock shows an instant. -/
def runTo (s : Session τ ω) (goal : τ) : Session τ ω :=
  { s with world := s.world.runTo s.plan s.budget.steps goal s.budget.jumps }

def ask (s : Session τ ω) (request : Stream.Ask (Event τ)) : Session τ ω :=
  { s with world := s.world.ask s.requests request, requests := s.requests + 1 }

/-- Runs until the newest request is met, and then until all are settled. -/
def await (s : Session τ ω) : Except Stall (Reply (Event τ) × Session τ ω) :=
  let newest := s.requests - 1
  let met (w : World τ ω) : Bool := (w.replyTo? newest).isSome
  match s.world.runUntil s.plan s.budget.steps met s.budget.jumps with
  | none => .error .forever
  | some world =>
      match world.replyTo? newest with
      | none => .error .forever
      | some reply => .ok (reply, { s with world := world })

/-- Takes all events until the stream ends. -/
def collect (s : Session τ ω) : Except Stall (List (Event τ) × Session τ ω) := do
  match ← (s.ask (.collect [])).await with
  | (.collected events, s) => return (events, s)
  | (_, s) => return ([], s)

/-- Takes all events until the stream ends and keeps the last one. -/
def last (s : Session τ ω) : Except Stall (Option (Event τ) × Session τ ω) := do
  match ← (s.ask (.last none)).await with
  | (.newest event, s) => return (event, s)
  | (_, s) => return (none, s)

def rest (s : Session τ ω) (delay : ω) : Except Stall (Session τ ω) := do
  match ← Spans.lapse s.world.now delay with
  | none => return s
  | some span => return s.runTo (Clock.add s.world.now span)

/-- Receives one event after the other, with a pause after each, until the stream ends. -/
def iterate (delay : ω) :
    Nat → Session τ ω → Except Stall (List (τ × Event τ) × Session τ ω)
  | 0, _ => .error .forever
  | fuel + 1, s => do
      match ← (s.ask .receive).await with
      | (.received event, s) =>
          let entry := (s.world.now, event)
          let s ← s.rest delay
          let (entries, s) ← iterate delay fuel s
          return (entry :: entries, s)
      | (_, s) => return ([], s)

/-- What a caller who waits for the end of a watch is told: the last event if it is good news, and
its failure otherwise. -/
def verdict (resource : String) : Option (Event τ) → Except Failure (Event τ)
  | none => .error (.general [.text ("Watch of " ++ resource ++ " ended without a final event")])
  | some event =>
      match event.failure? with
      | some f => .error f
      | none => .ok event

/-- What a caller does step by step. -/
inductive Step (ω : Type) where
  | receive
  | advance (delay : ω)
  | trigger (t : Trigger)
  | kill
  | close
  | drain
  | settle

/-- A step of a caller whose signals nobody listens to. -/
def Step.muted : Step ω → Step ω
  | .trigger _ => .settle
  | s => s

/-- What a caller sees after a step. -/
structure Report (τ : Type) where
  now : τ
  /-- What was drained and then what was received during the step, in order; `none` stands for the
  end of the stream. -/
  got : List (Option (Event τ))
  queries : Nat
  held : Nat
  closed : Bool
  ending : Option Ending
  /-- How many receivers have to wait. -/
  waiting : Nat
  notes : List Note
  denial : Option Denial

/-- What a reply gives to a receiver. -/
def gain? : Reply (Event τ) → Option (Option (Event τ))
  | .received event => some (some event)
  | .ended => some none
  | _ => none

/-- What a caller sees of a session since an earlier state of it, with the events that it drained
itself. -/
def report (before s : Session τ ω) (drained : List (Event τ)) (denial : Option Denial) :
    Report τ :=
  let w := s.world
  { now := w.now
    got :=
      drained.map some ++
        (w.traffic.finished.drop before.world.traffic.finished.length).filterMap (gain? ·.2)
    queries := w.queryTimes.length
    held := w.traffic.stream.buffer.length
    closed := w.traffic.stream.closed
    ending := w.ending?
    waiting := (s.receivers.filter fun n => (w.replyTo? n).isNone).length
    notes := (w.notes.drop before.world.notes.length).map Prod.snd
    denial := denial }

def step (s : Session τ ω) : Step ω → Except Stall (Report τ × Session τ ω)
  | .receive =>
      let s' := ({ s with receivers := s.receivers ++ [s.requests] }.ask .receive).settle
      .ok (s.report s' [] none, s')
  | .advance delay => do
      let s' :=
        match ← Spans.lapse s.world.now delay with
        | none => s.settle
        | some span => s.runTo (Clock.add s.world.now span)
      return (s.report s' [] none, s')
  | .trigger t =>
      let s' := { s with world := s.world.trigger t }.settle
      .ok (s.report s' [] none, s')
  | .kill =>
      let s' := { s with world := s.world.kill }.settle
      .ok (s.report s' [] none, s')
  | .close => do
      let (reply, s') ← (s.ask .close).await
      match reply with
      | .denied d => return (s.report s' [] (some d), s')
      | _ => return (s.report s' [] none, s')
  | .drain => do
      let (events, s') ← s.collect
      return (s.report s' events none, s')
  | .settle =>
      let s' := s.settle
      .ok (s.report s' [] none, s')

/-- Nobody is interested in the watch any more: a run that still goes on is cancelled. -/
def abandon (s : Session τ ω) : Session τ ω := { s with world := s.world.kill }.settle

def stepAll (s : Session τ ω) : List (Step ω) → Except Stall (List (Report τ) × Session τ ω)
  | [] => .ok ([], s)
  | first :: steps => do
      let (report, s) ← s.step first
      let (reports, s) ← stepAll s steps
      return (report :: reports, s)

end Session

end Vigil.Watch
