import Vigil.Watch.World

/-!
# Subjects of a watch

What is watched fixes how it is observed and which statuses end the watch as a failure; the caller
chooses the resource, the goal and the pace.
-/

namespace Vigil.Watch

/-- A kind of resource that can be watched. -/
structure Subject where
  strategy : Strategy
  /-- The statuses that end a watch as a failure. -/
  failures : List String

variable {τ ω : Type} [Wait ω]

/-- The plan of a watch, if its parameters are acceptable. -/
def Subject.plan (s : Subject) (resource desired : Option Label)
    (initialWait pollInterval : Option ω) (services : Nat → Service τ)
    (hook : Option (Snapshot τ → Reaction)) (heard : Bool) :
    Except (WaitConfig.Fault ω) (Plan τ ω) := do
  let config ← WaitConfig.make resource desired s.failures initialWait pollInterval
  return ⟨config, s.strategy, services, hook, heard⟩

end Vigil.Watch
