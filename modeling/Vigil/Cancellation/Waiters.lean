import Vigil.Cancellation

/-!
# Waiting for a cancellation

Any number of parties may wait for one cancellation. Each looks at it when it begins to wait, when
its timer rings and when somebody asks; a timer that rings early is set again.
-/

namespace Vigil.Cancellation

/-- Parties that wait for a cancellation, each with its timer. -/
structure Waiters (τ : Type) where
  now : τ
  cancellation : Cancellation τ
  /-- Those who wait, in the order in which they began, with the instant of their timer. -/
  waiting : List (String × Option τ)
  /-- Those whose wait is over, in the order in which it ended. -/
  finished : List String
  deriving Inhabited

/-- What can happen to waiting parties. -/
inductive Waiters.Step (τ : Type) where
  | request
  | begin (name : String)
  | advance (span : τ)
  | settle

namespace Waiters

variable {τ : Type} [Clock τ]

/-- The step in which time passes for as long as a wait takes. -/
def Step.pass {ω : Type} [Wait ω] [Spans ω τ] (delay : ω) : Except Stall (Step τ) :=
  match Spans.lapse (Clock.zero : τ) delay with
  | .ok (some span) => .ok (.advance span)
  | .ok none => .ok .settle
  | .error stall => .error stall

def start (c : Cancellation τ) : Waiters τ := ⟨Clock.zero, c, [], []⟩

/-- The timer of a party has rung, or somebody has asked. -/
def mustLook (w : Waiters τ) (due : Option τ) : Bool :=
  w.cancellation.requested || (due.map (Clock.reached w.now)).getD false

def lookOne (w : Waiters τ) (party : String × Option τ) : Waiters τ :=
  if w.mustLook party.2 then
    match w.cancellation.look w.now with
    | .over => { w with finished := w.finished ++ [party.1] }
    | .until due => { w with waiting := w.waiting ++ [(party.1, due)] }
  else { w with waiting := w.waiting ++ [party] }

/-- Everybody who must look does so. -/
def settle (w : Waiters τ) : Waiters τ := w.waiting.foldl lookOne { w with waiting := [] }

/-- A party begins to wait: it looks at once. -/
def begin (w : Waiters τ) (name : String) : Waiters τ :=
  match w.cancellation.look w.now with
  | .over => { w with finished := w.finished ++ [name] }
  | .until due => { w with waiting := w.waiting ++ [(name, due)] }

/-- One step, after which everybody who must look has done so. -/
def step (w : Waiters τ) : Step τ → Waiters τ
  | .request => { w with cancellation := w.cancellation.request }.settle
  | .begin name => (w.begin name).settle
  | .advance span => { w with now := Clock.add w.now span }.settle
  | .settle => w.settle

/-- The states before the first step and after each one. -/
def trace (w : Waiters τ) : List (Step τ) → List (Waiters τ)
  | [] => [w]
  | s :: steps => w :: trace (w.step s) steps

end Waiters

end Vigil.Cancellation
