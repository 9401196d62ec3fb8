import Vigil.Watch.World

/-!
# Running a watch

Of all the ways in which a watch and the parties around it can go on, one is carried out: parties on
the stream first, then helpers, then the run, and when nobody can go on the clock jumps to the
earliest timer. Every step is one of `World.act?`, so what holds for all ways holds for this one.
-/

namespace Vigil.Watch.World

open Vigil.Stream (Ask Reply)

variable {τ ω : Type} [Clock τ] [Wait ω] [Spans ω τ]

/-- The next step of those who can go on. -/
def next? (w : World τ ω) : Option (Action τ) :=
  if !w.traffic.isSettled then some (.serve 0)
  else
    match w.nextHelper? with
    | some position => some (.helper position)
    | none => if w.runCanGo then some .run else none

/-- Lets everybody go on until all are settled, in at most `fuel` steps. -/
def settle (plan : Plan τ ω) : Nat → World τ ω → World τ ω
  | 0, w => w
  | fuel + 1, w =>
      match w.next? with
      | none => w
      | some action =>
          match w.act? plan action with
          | some w' => settle plan fuel w'
          | none => w

/-- The earliest instant to which the clock can jump. -/
def nextTimer? (w : World τ ω) : Option τ :=
  Clock.earliest (w.timers.filter fun due => Clock.isFinite due && Clock.lt w.now due)

/-- Moves the clock. -/
def passTime (plan : Plan τ ω) (w : World τ ω) (goal : τ) : World τ ω :=
  (w.act? plan (.passTime goal)).getD w

/-- Runs until the clock shows an instant and all are settled, in at most `jumps` jumps. -/
def runTo (plan : Plan τ ω) (fuel : Nat) (goal : τ) : Nat → World τ ω → World τ ω
  | 0, w => w
  | jumps + 1, w =>
      let w := w.settle plan fuel
      match w.nextTimer? with
      | some due =>
          if Clock.le due goal then runTo plan fuel goal jumps (w.passTime plan due)
          else (w.passTime plan goal).settle plan fuel
      | none => (w.passTime plan goal).settle plan fuel

/-- Runs until something holds of a settled state; `none` if it never does because everybody waits
for ever. -/
def runUntil (plan : Plan τ ω) (fuel : Nat) (holds : World τ ω → Bool) :
    Nat → World τ ω → Option (World τ ω)
  | 0, _ => none
  | jumps + 1, w =>
      let w := w.settle plan fuel
      if holds w then some w
      else
        match w.nextTimer? with
        | some due => runUntil plan fuel holds jumps (w.passTime plan due)
        | none => none

/-- A consumer comes with a request. -/
def ask (w : World τ ω) (consumer : Nat) (request : Ask (Event τ)) : World τ ω :=
  { w with traffic := w.traffic.start (.consumer consumer) request }

/-- How the request of a consumer ended, if it did. -/
def replyTo? (w : World τ ω) (consumer : Nat) : Option (Reply (Event τ)) :=
  w.traffic.replyTo? (.consumer consumer)

/-- How the run ended, if it did. -/
def ending? (w : World τ ω) : Option Ending :=
  match w.run.phase with
  | .ended how => some how
  | _ => none

/-- The instants at which queries began. -/
def queryTimes (w : World τ ω) : List τ :=
  w.journal.filterMap fun (t, deed) =>
    match deed with
    | .query _ => some t
    | _ => none

/-- The calls of the hook with their instants. -/
def hookCalls (w : World τ ω) : List (τ × Snapshot τ) :=
  w.journal.filterMap fun (t, deed) =>
    match deed with
    | .hookCalled snapshot => some (t, snapshot)
    | _ => none

/-- What was logged, with instants. -/
def notes (w : World τ ω) : List (τ × Log.Note) :=
  w.journal.filterMap fun (t, deed) =>
    match deed with
    | .noted note => some (t, note)
    | _ => none

/-- The records of what was logged, which are bound to the watch. -/
def records (plan : Plan τ ω) (w : World τ ω) : List (Log.Record τ) :=
  w.notes.map fun (t, note) =>
    ⟨t, Log.watchModule, note.level, note.message, plan.config.bound, note.failure⟩

end Vigil.Watch.World
