import Vigil.Proofs.Watch.Control

/-!
# Hooks that remember

In one step a run calls its hook once at most.  So a hook that remembers what it was told before, or
that looks at anything around it, is one that may be a different function in each step.  What holds
however the function changes holds for every hook.
-/

namespace Vigil.Watch

variable {τ ω : Type}

/-- Something that can happen, with the hook that is called if the run comes to that. -/
structure Turn (τ : Type) where
  action : Action τ
  hook : Option (Snapshot τ → Reaction)

/-- The same watch with another hook. -/
def Plan.hooked (plan : Plan τ ω) (hook : Option (Snapshot τ → Reaction)) : Plan τ ω :=
  { plan with hook := hook }

namespace World

variable [Clock τ] [Wait ω] [Spans ω τ] {plan : Plan τ ω} {w w' : World τ ω}

/-- What some turns lead to, if each is possible. -/
def takeAll? (plan : Plan τ ω) (w : World τ ω) : List (Turn τ) → Option (World τ ω)
  | [] => some w
  | turn :: turns =>
      match w.act? (plan.hooked turn.hook) turn.action with
      | some w' => w'.takeAll? plan turns
      | none => none

/-- A hook that remembers nothing is the same in each turn. -/
theorem takeAll?_of_constant (plan : Plan τ ω) (w : World τ ω) (actions : List (Action τ)) :
    w.takeAll? plan (actions.map fun action => ⟨action, plan.hook⟩) = w.actAll? plan actions := by
  induction actions generalizing w with
  | nil => rfl
  | cons action actions ih =>
      rw [List.map_cons, takeAll?, actAll?]
      change (match w.act? plan action with
        | some w' => w'.takeAll? plan (actions.map fun action => ⟨action, plan.hook⟩)
        | none => none) = _
      cases w.act? plan action with
      | none => rfl
      | some w' => exact ih w'

theorem exists_of_takeAll?_cons {turn : Turn τ} {turns : List (Turn τ)}
    (htake : w.takeAll? plan (turn :: turns) = some w') :
    ∃ middle, w.act? (plan.hooked turn.hook) turn.action = some middle ∧
      middle.takeAll? plan turns = some w' := by
  rw [takeAll?] at htake
  split at htake
  · exact ⟨_, ‹_›, htake⟩
  · cases htake

end World

end Vigil.Watch
