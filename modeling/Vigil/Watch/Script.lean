import Vigil.Watch.World

/-!
# A scripted service

A script lists how the first queries are served. The last entry serves all later ones, up to a limit
beyond which a query cancels the task that runs it.
-/

namespace Vigil.Watch

variable {τ ω : Type}

/-- A query that takes some time. A delay that is not above zero takes none, and one that the clock
cannot count makes the query fail. -/
def Service.after [Wait ω] [Spans ω τ] (delay : Option ω) (triggers : List Trigger)
    (answer : Answer) : Service τ :=
  match delay with
  | none => ⟨none, triggers, answer⟩
  | some d =>
      if Wait.isPositive d then
        match (Spans.span? d : Option τ) with
        | some span => ⟨some span, triggers, answer⟩
        | none =>
            ⟨none, [], .failure
              (.foreign "OverflowError" [.text "int too large to convert to float"])⟩
      else ⟨none, triggers, answer⟩

/-- How queries are served. -/
structure Script (τ : Type) where
  entries : List (Service τ)
  limit : Nat

namespace Script

/-- How a script without entries serves every query. -/
def exhausted : Service τ :=
  ⟨none, [], .failure (.foreign "IndexError" [.text "list index out of range"])⟩

/-- The service of the query with a number, counted from zero. -/
def service (s : Script τ) (number : Nat) : Service τ :=
  if s.limit ≤ number then ⟨none, [], .cancelled⟩
  else
    match s.entries[number]? with
    | some entry => entry
    | none => s.entries.getLast?.getD exhausted

/-- The script when nobody listens to its signals. -/
def muted (s : Script τ) : Script τ :=
  { s with entries := s.entries.map fun entry => { entry with triggers := [] } }

end Script

/-- A hook that only records where it would have given a signal that nobody listens to. -/
def mutedHook (hook : Snapshot τ → Reaction) (snapshot : Snapshot τ) : Reaction :=
  match hook snapshot with
  | .trigger _ => .record
  | reaction => reaction

end Vigil.Watch
