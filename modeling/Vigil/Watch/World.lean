import Vigil.Stream.Traffic
import Vigil.Watch.Observation

/-!
# A watch and everything around it

One watch runs beside the consumers of its stream and beside two helpers that guard each of its
pauses. They share one thread and one clock: running takes no time, and time passes only when nobody
can go on. A `World` is the state of all of them between two steps, and `World.act?` says what each
possible step does. Which of several possible steps comes next is left open.

The run itself is a small machine. Its phases are the places where it can be held up: before its
first step, in a query, in a send, in a pause, and while it clears away the helpers of a pause.
-/

namespace Vigil.Watch

open Log (Note Record)
open Vigil.Stream (Ask Denial Reply Traffic)

/-- A signal that a caller can give to a watch. -/
inductive Trigger where
  | cancel
  | stop
  deriving DecidableEq, Repr, Inhabited

/-- One query as the service serves it: how long it takes, what is triggered meanwhile, and the
answer. A query without a duration is answered on the spot. -/
structure Service (τ : Type) where
  duration : Option τ
  triggers : List Trigger
  answer : Answer
  deriving Inhabited

/-- What a hook does when it is called. -/
inductive Reaction where
  | record
  | trigger (t : Trigger)
  | fail (f : Failure)
  deriving Inhabited

/-- Everything about a watch that does not change while it runs. -/
structure Plan (τ ω : Type) where
  config : WaitConfig ω
  strategy : Strategy
  /-- How the queries are served, counted from zero. -/
  services : Nat → Service τ
  hook : Option (Snapshot τ → Reaction)
  /-- Somebody hears what the watch logs. -/
  heard : Bool

/-- How a run came to its end. -/
inductive Ending where
  | finished
  | cancelled
  /-- Something that the run worked on had an unexpected shape. -/
  | broken (d : Defect)
  /-- The run could not log its first line. Its stream stays as it is. -/
  | mute (d : Defect)
  /-- The stream turned down an event. -/
  | denied (d : Denial)
  deriving DecidableEq, Repr, Inhabited

/-- Where a run is held up. -/
inductive Phase (τ : Type) where
  | created
  /-- A query is on its way and is answered at an instant. -/
  | querying (number : Nat) (due : τ)
  /-- An event is to be accepted by the stream. -/
  | sending (ticket : Nat) (event : Event τ)
  /-- A pause lasts until an instant, or until one of its helpers is done. -/
  | sleeping (pause : Nat) (due : τ)
  /-- The helpers of a pause were told to leave and have not all left. -/
  | tidying (pause : Nat) (defect : Option Defect)
  | ended (how : Ending)
  deriving Inhabited

structure Run (τ : Type) where
  phase : Phase τ
  /-- The task of the run was cancelled and has not found out yet. -/
  killed : Bool
  started : τ
  queries : Nat
  sends : Nat
  pauses : Nat
  /-- No observation has been followed by the grace period yet. -/
  graceDue : Bool
  deriving Inhabited

inductive Guard where
  | cancellation
  | stop
  deriving DecidableEq, Repr, Inhabited

/-- A helper that guards a pause. -/
structure Helper (τ : Type) where
  pause : Nat
  guards : Guard
  /-- The helper has looked once; it looks again at the instant of its timer, if it set one. -/
  armed : Option (Option τ)
  /-- The helper was told to leave. -/
  withdrawn : Bool
  deriving Inhabited

/-- Who is on the stream of a watch. -/
inductive PartyId where
  | run (ticket : Nat)
  | consumer (number : Nat)
  deriving DecidableEq, Repr, Inhabited

/-- Clients that queries opened. -/
structure Clients where
  opened : Nat
  stillOpen : Nat
  deriving DecidableEq, Repr, Inhabited

/-- What a run did, apart from what it put on the stream. -/
inductive Deed (τ ω : Type) where
  | began
  | query (number : Nat)
  | answered (number : Nat) (result : Result)
  | hookCalled (snapshot : Snapshot τ)
  | paused (delay : ω)
  | noted (note : Note)
  | ended (how : Ending)

/-- The state between two steps. -/
structure World (τ ω : Type) where
  now : τ
  cancellation : Cancellation τ
  stopped : Bool
  traffic : Traffic PartyId (Event τ)
  run : Run τ
  /-- The helpers that have not left, in the order in which they came. -/
  helpers : List (Helper τ)
  clients : Clients
  /-- What the run did, each deed with its instant, in order. -/
  journal : List (τ × Deed τ ω)

/-- What can happen next. -/
inductive Action (τ : Type) where
  | run
  | helper (position : Nat)
  | serve (position : Nat)
  | passTime (goal : τ)
  | trigger (t : Trigger)
  /-- The task of the run is cancelled from outside. -/
  | kill
  | ask (consumer : Nat) (request : Ask (Event τ))
  | withdraw (consumer : Nat)

namespace World

variable {τ ω : Type} [Clock τ] [Wait ω] [Spans ω τ]

/-- A watch that was started and has not taken its first step. -/
def start (now : τ) (cancellation : Cancellation τ) (stopped : Bool) (stream : Stream (Event τ)) :
    World τ ω :=
  { now := now
    cancellation := cancellation
    stopped := stopped
    traffic := .onto stream
    run := ⟨.created, false, now, 0, 0, 0, true⟩
    helpers := []
    clients := ⟨0, 0⟩
    journal := [] }

/-! ### What the run does -/

def record (w : World τ ω) (deed : Deed τ ω) : World τ ω :=
  { w with journal := w.journal ++ [(w.now, deed)] }

/-- Writes a note into the journal. -/
def note (w : World τ ω) (n : Note) : World τ ω := w.record (.noted n)

def noteAll (w : World τ ω) (notes : List Note) : World τ ω := notes.foldl note w

/-- Logs a note, if a record can be made of it now. -/
def log (plan : Plan τ ω) (w : World τ ω) (n : Note) : Except Defect (World τ ω) :=
  if Log.canRecord plan.heard w.now then .ok (w.note n) else .error .tooLarge

def logAll (plan : Plan τ ω) (w : World τ ω) (notes : List Note) : Except Defect (World τ ω) :=
  notes.foldlM (log plan) w

def goTo (w : World τ ω) (phase : Phase τ) : World τ ω :=
  { w with run := { w.run with phase := phase } }

def trigger (w : World τ ω) : Trigger → World τ ω
  | .cancel => { w with cancellation := w.cancellation.request }
  | .stop => { w with stopped := true }

def finish (w : World τ ω) (how : Ending) : World τ ω := (w.record (.ended how)).goTo (.ended how)

/-- Closes the stream, unless it is closed. -/
def shut (w : World τ ω) : World τ ω :=
  match w.traffic.closeNow with
  | .ok traffic => { w with traffic := traffic }
  | .error _ => w

/-- Puts a last event on the stream and closes it, unless it is closed. -/
def shutWith (w : World τ ω) (event : Event τ) : World τ ω :=
  match w.traffic.sendFinal event with
  | .ok traffic => { w with traffic := traffic }
  | .error _ => w

/-- The event that a run leaves behind when its task is cancelled. -/
def killedEvent (plan : Plan τ ω) : Event τ := .cancelled (.cancelled plan.config.resource false)

/-- The run cannot go on: the stream ends without a last event. -/
def breakDown (w : World τ ω) (how : Ending) : World τ ω := w.shut.finish how

/-- The task of the run was cancelled: a last event takes the place of whatever was on its way. -/
def unwind (plan : Plan τ ω) (w : World τ ω) : World τ ω :=
  match w.log plan (.warning "Poll task cancelled") with
  | .ok w => (w.shutWith (killedEvent plan)).finish .cancelled
  | .error d => w.breakDown (.broken d)

/-- Offers an event to the stream. A run whose task was cancelled finds out here. -/
def send (w : World τ ω) (event : Event τ) : World τ ω :=
  let ticket := w.run.sends
  let traffic := w.traffic.start (.run ticket) (.send event)
  { w with
    traffic := if w.run.killed then traffic.withdraw (.run ticket) else traffic
    run := { w.run with phase := .sending ticket event, sends := ticket + 1 } }

/-- Why the watch has to end now, if it has to: the cancellation comes before the stop signal. -/
def abort? (plan : Plan τ ω) (w : World τ ω) : Option (Note × Event τ) :=
  if w.cancellation.hasFired w.now then
    let exceeded := w.cancellation.deadlineExceeded w.now
    let reason := if exceeded then "deadline exceeded" else "cancelled"
    some (.warning ("Wait aborted (" ++ reason ++ ")"),
      .cancelled (.cancelled plan.config.resource exceeded))
  else if w.stopped then
    some (.warning "Wait stopped", .stopped (.stopped plan.config.resource))
  else none

/-- A client is opened for a query, if the strategy uses one. -/
def openClient (plan : Plan τ ω) (w : World τ ω) : World τ ω :=
  if plan.strategy.opensClient then
    { w with clients := ⟨w.clients.opened + 1, w.clients.stillOpen + 1⟩ }
  else w

def closeClient (plan : Plan τ ω) (w : World τ ω) : World τ ω :=
  if plan.strategy.opensClient then
    { w with clients := ⟨w.clients.opened, w.clients.stillOpen - 1⟩ }
  else w

/-- Logs what there is to log and offers the event that follows. If either fails, the run breaks. -/
def conclude (plan : Plan τ ω) (w : World τ ω) (outcome : List Note × Except Defect (Event τ)) :
    World τ ω :=
  match w.logAll plan outcome.1, outcome.2 with
  | .error d, _ => w.breakDown (.broken d)
  | .ok w, .error d => w.breakDown (.broken d)
  | .ok w, .ok event => w.send event

def endQuery (plan : Plan τ ω) (w : World τ ω) (number : Nat) : World τ ω :=
  let service := plan.services number
  let result := plan.strategy.read service.answer
  let w := (service.triggers.foldl trigger w).closeClient plan
  let w := w.record (.answered number result)
  match result with
  | .cancelled => w.unwind plan
  | .failure f => w.conclude plan (observeFailure plan.config plan.strategy f)
  | .payload v =>
      w.conclude plan
        (observePayload plan.config plan.strategy ⟨w.now, w.run.started, w.cancellation⟩ v)

def beginQuery (plan : Plan τ ω) (w : World τ ω) : World τ ω :=
  let number := w.run.queries
  let w := (w.record (.query number)).openClient plan
  let w := { w with run := { w.run with queries := number + 1 } }
  match (plan.services number).duration with
  | none => w.endQuery plan number
  | some span => w.goTo (.querying number (Clock.add w.now span))

/-- The run decides whether to end or to query. -/
def decide (plan : Plan τ ω) (w : World τ ω) : World τ ω :=
  match w.abort? plan with
  | some (note, event) => w.conclude plan ([note], .ok event)
  | none => w.beginQuery plan

def callHelpers (w : World τ ω) (pause : Nat) : World τ ω :=
  { w with
    helpers := w.helpers ++ [⟨pause, .cancellation, none, false⟩, ⟨pause, .stop, none, false⟩] }

def dismissHelpers (w : World τ ω) (pause : Nat) : World τ ω :=
  { w with
    helpers := w.helpers.map fun h => if h.pause = pause then { h with withdrawn := true } else h }

/-- The run pauses, unless the delay is not above zero. A delay that the clock cannot count breaks
the run as soon as the helpers have left. -/
def pause (plan : Plan τ ω) (w : World τ ω) (delay : ω) : World τ ω :=
  let w := w.record (.paused delay)
  if Wait.isPositive delay then
    let number := w.run.pauses
    let w := { w with run := { w.run with pauses := number + 1 } }.callHelpers number
    match (Spans.span? delay : Option τ) with
    | some span => w.goTo (.sleeping number (Clock.add w.now span))
    | none => (w.dismissHelpers number).goTo (.tidying number (some .tooLarge))
  else w.decide plan

/-- The hook is called with an observation. -/
def callHook (plan : Plan τ ω) (w : World τ ω) (snapshot : Snapshot τ) : World τ ω :=
  match plan.hook with
  | none => w
  | some hook =>
      let w := w.record (.hookCalled snapshot)
      match hook snapshot with
      | .record => w
      | .trigger t => w.trigger t
      | .fail _ => w

/-- What is logged of a call of the hook: that it failed, and nothing else. -/
def complaints (plan : Plan τ ω) (snapshot : Snapshot τ) : List Note :=
  match plan.hook with
  | none => []
  | some hook =>
      match hook snapshot with
      | .fail f => [⟨.error, "Tick hook failed; continuing", some f⟩]
      | _ => []

def sleepingLine (plan : Plan τ ω) : Except Defect Note := do
  return .info ("Sleeping initial wait " ++ (← Wait.text plan.config.grace) ++ "s")

/-- The run pauses after an observation, the first time for the grace period. -/
def rest (plan : Plan τ ω) (w : World τ ω) : World τ ω :=
  if w.run.graceDue then
    match sleepingLine plan >>= w.log plan with
    | .ok w =>
        { w with run := { w.run with graceDue := false } }.pause plan plan.config.grace
    | .error d => w.breakDown (.broken d)
  else w.pause plan plan.config.pollInterval

/-- What follows an accepted event. -/
def afterSend (plan : Plan τ ω) (w : World τ ω) (event : Event τ) : World τ ω :=
  if event.isTerminal then w.shut.finish .finished
  else
    match event with
    | .progress snapshot =>
        let w := w.callHook plan snapshot
        match w.logAll plan (complaints plan snapshot) with
        | .ok w => w.rest plan
        | .error d => w.breakDown (.broken d)
    | _ => w.pause plan plan.config.pollInterval

def openingLine (plan : Plan τ ω) (w : World τ ω) : Except Defect Note := do
  return .info ("Polling " ++ plan.strategy.description ++ " (initial wait " ++
    (← Wait.text plan.config.initialWait) ++ "s, interval " ++
    (← Wait.text plan.config.pollInterval) ++ "s, time left " ++ w.cancellation.describe w.now ++
    ")")

/-- The first step of a run. If its task was cancelled before, it never begins; its stream still
gets a last event. The first line is logged before anything looks after the stream: if that fails,
the run ends at once and nobody closes the stream. -/
def begin (plan : Plan τ ω) (w : World τ ω) : World τ ω :=
  if w.run.killed then (w.shutWith (killedEvent plan)).finish .cancelled
  else
    let w := { w with run := { w.run with started := w.now } }.record .began
    match w.openingLine plan >>= w.log plan with
    | .ok w => w.decide plan
    | .error d => w.finish (.mute d)

/-! ### Who can go on -/

def guarded (w : World τ ω) (pause : Nat) : Bool := w.helpers.any fun h => h.pause == pause

def fullyGuarded (w : World τ ω) (pause : Nat) : Bool :=
  [Guard.cancellation, Guard.stop].all fun g =>
    w.helpers.any fun h => h.pause == pause && h.guards == g

def runCanGo (w : World τ ω) : Bool :=
  match w.run.phase with
  | .created => true
  | .querying _ due => w.run.killed || Clock.reached w.now due
  | .sending ticket _ => (w.traffic.replyTo? (.run ticket)).isSome
  | .sleeping pause due =>
      w.run.killed || Clock.reached w.now due || !w.fullyGuarded pause
  | .tidying pause _ => !w.guarded pause
  | .ended _ => false

/-- The next step of the run, when it can take one. -/
def stepRun (plan : Plan τ ω) (w : World τ ω) : World τ ω :=
  match w.run.phase with
  | .created => w.begin plan
  | .querying number _ =>
      if w.run.killed then (w.closeClient plan).unwind plan else w.endQuery plan number
  | .sending ticket event =>
      match w.traffic.replyTo? (.run ticket) with
      | some .sent => w.afterSend plan event
      | some (.denied d) => w.breakDown (.denied d)
      | some _ => w.unwind plan
      | none => w
  | .sleeping pause _ => (w.dismissHelpers pause).goTo (.tidying pause none)
  | .tidying _ defect =>
      if w.run.killed then w.unwind plan
      else
        match defect with
        | some d => w.breakDown (.broken d)
        | none => w.decide plan
  | .ended _ => w

def helperCanGo (w : World τ ω) (h : Helper τ) : Bool :=
  h.withdrawn ||
    match h.armed with
    | none => true
    | some due =>
        match h.guards with
        | .cancellation =>
            w.cancellation.requested || (due.map (Clock.reached w.now)).getD false
        | .stop => w.stopped

/-- A helper after its next step; `none` if it leaves. -/
def lookHelper (w : World τ ω) (h : Helper τ) : Option (Helper τ) :=
  if h.withdrawn then none
  else
    match h.guards with
    | .cancellation =>
        match w.cancellation.look w.now with
        | .over => none
        | .until due => some { h with armed := some due }
    | .stop => if w.stopped then none else some { h with armed := some none }

def stepHelper (w : World τ ω) (position : Nat) (h : Helper τ) : World τ ω :=
  { w with
    helpers :=
      match w.lookHelper h with
      | some h' => w.helpers.set position h'
      | none => w.helpers.eraseIdx position }

/-- The position of the first helper that can take a step. -/
def nextHelper? (w : World τ ω) : Option Nat := w.helpers.findIdx? w.helperCanGo

/-- Nobody can take a step until time passes or something happens from outside. -/
def isSettled (w : World τ ω) : Bool :=
  w.traffic.isSettled && w.nextHelper?.isNone && !w.runCanGo

/-- The instants at which somebody's timer rings. -/
def timers (w : World τ ω) : List τ :=
  let own :=
    match w.run.phase with
    | .querying _ due => [due]
    | .sleeping _ due => [due]
    | _ => []
  own ++ w.helpers.filterMap fun h => h.armed.getD none

/-- The task of the run is cancelled. It finds out where it is held up. -/
def kill (w : World τ ω) : World τ ω :=
  match w.run.phase with
  | .ended _ => w
  | .sending ticket _ =>
      { w with
        traffic := w.traffic.withdraw (.run ticket)
        run := { w.run with killed := true } }
  | _ => { w with run := { w.run with killed := true } }

/-- The run is held up at a place where it can be cancelled. A send that was answered does not hold
it up: the run goes on with the answer before anybody else does anything. -/
def isHeldUp (w : World τ ω) : Bool :=
  match w.run.phase with
  | .sending ticket _ => (w.traffic.replyTo? (.run ticket)).isNone
  | _ => true

/-- What an action leads to; `none` if it is not possible now. Time passes only when everybody is
settled, and not beyond a timer. The task of the run is cancelled only where the run is held up. -/
def act? (plan : Plan τ ω) (w : World τ ω) : Action τ → Option (World τ ω)
  | .run => if w.runCanGo then some (w.stepRun plan) else none
  | .helper position =>
      match w.helpers[position]? with
      | some h => if w.helperCanGo h then some (w.stepHelper position h) else none
      | none => none
  | .serve position =>
      if position < w.traffic.ready.length then
        some { w with traffic := w.traffic.serveAt position }
      else none
  | .passTime goal =>
      if w.isSettled && Clock.lt w.now goal && w.timers.all fun due => !Clock.lt due goal then
        some { w with now := goal }
      else none
  | .trigger t => some (w.trigger t)
  | .kill => if w.isHeldUp then some w.kill else none
  | .ask consumer request =>
      some { w with traffic := w.traffic.start (.consumer consumer) request }
  | .withdraw consumer => some { w with traffic := w.traffic.withdraw (.consumer consumer) }

/-- What a list of actions leads to, if each is possible in its turn. -/
def actAll? (plan : Plan τ ω) (w : World τ ω) : List (Action τ) → Option (World τ ω)
  | [] => some w
  | action :: actions =>
      match w.act? plan action with
      | some w' => w'.actAll? plan actions
      | none => none

end World

end Vigil.Watch
